import SqlxMonetdb.Session

set_option autoImplicit false

/-!
# Cancelled queries

A query is suspended at the flush of its request, before each block header and before
each block payload, and may be dropped there. A dropped query leaves its request and
whatever it has not read of its reply behind, and the connection keeps no record of it.
-/
namespace SqlxMonetdb.Cancellation
open TextPrimitives DriverError Framing FramingBlocks MessageStream Response Connection LabelledRuns
open Session

section Machine

/-- Where the future of `executeQuery` is suspended. -/
inductive Await where
  | flush
  | header (message : List UInt8)
  | payload (message : List UInt8) (len : ℕ) (isLast : Bool)
  deriving DecidableEq

/-- The query that holds the connection: its number among all requests, and the bytes
read off the stream before it began. -/
structure Running where
  number : ℕ
  start : ℕ
  await : Await
  deriving DecidableEq

structure Completed where
  number : ℕ
  start : ℕ
  result : Except Error QueryResponse
  deriving DecidableEq

/-- The connection and its server: `buffer` holds the requests put into the write buffer
and not flushed, `sent` counts those the server has, `taken` the bytes read so far. -/
structure State where
  stream : MonetStream
  buffer : List Text
  sent : ℕ
  taken : ℕ
  running : Option Running
  completed : List Completed
  deriving DecidableEq

def initial : State := ⟨⟨[], []⟩, [], 0, 0, none, []⟩

inductive Event where
  | begin (sql : Text)
  /-- What the running query waits for has happened. -/
  | wake
  | drop
  deriving DecidableEq

def State.blockRead (s : State) (r : Running) (message : List UInt8) (isLast : Bool) : State :=
  if isLast then
    { s with
      running := none
      completed := s.completed ++ [⟨r.number, r.start, messageResult message⟩] }
  else { s with running := some { r with await := .header message } }

/-- The replies to `count` requests, the first of them with the number `first`. -/
def repliesFrom (replies : ℕ → Reply) (first count : ℕ) : List UInt8 :=
  wires ((List.range' first count).map replies)

/-- The running query up to its next suspension. A read without enough bytes is not
ready. The flush hands every buffered request over, and each is answered in its turn. -/
def State.resume (replies : ℕ → Reply) (s : State) (r : Running) : Except Unit State :=
  match r.await with
  | .flush =>
    .ok { s with
      stream := ⟨s.stream.unread ++ repliesFrom replies s.sent s.buffer.length,
        s.stream.written ++ (s.buffer.map request).flatten⟩
      buffer := []
      sent := s.sent + s.buffer.length
      running := some { r with await := .header [] } }
  | .header message =>
    match readBuffered s.stream 2 with
    | (.error _, _) => .error ()
    | (.ok header, stream) =>
      let (len, isLast) := decodeHeader (header.getD 0 0, header.getD 1 0)
      let s := { s with stream, taken := s.taken + 2 }
      if len > 0 then .ok { s with running := some { r with await := .payload message len isLast } }
      else .ok (s.blockRead r message isLast)
  | .payload message len isLast =>
    match readBuffered s.stream len with
    | (.error _, _) => .error ()
    | (.ok payload, stream) =>
      .ok ({ s with stream, taken := s.taken + len }.blockRead r (message ++ payload) isLast)

def step (replies : ℕ → Reply) (s : State) : Event → Except Unit State
  | .begin sql =>
    match s.running with
    | some _ => .error ()
    | none => .ok { s with
        buffer := s.buffer ++ [sql]
        running := some ⟨s.sent + s.buffer.length, s.taken, .flush⟩ }
  | .wake =>
    match s.running with
    | some r => s.resume replies r
    | none => .error ()
  | .drop =>
    match s.running with
    | some _ => .ok { s with running := none }
    | none => .error ()

end Machine

section Decoding

def afterBlock (data : List UInt8) (offset : ℕ) (message : List UInt8) (isLast : Bool) :
    Option (List UInt8 × ℕ) :=
  if isLast then some (message, offset) else decodeFrom data offset message

/-- The message a query suspended at `offset` of `data` will get. -/
def decodeAt (data : List UInt8) (offset : ℕ) : Await → Option (List UInt8 × ℕ)
  | .flush => decodeFrom data offset []
  | .header message => decodeFrom data offset message
  | .payload message len isLast =>
    if data.length < offset + len then none
    else afterBlock data (offset + len) (message ++ (data.drop offset).take len) isLast

theorem decodeFrom_header {data message : List UInt8} {offset len : ℕ} {isLast : Bool}
    (within : offset + 2 ≤ data.length)
    (header : decodeHeader (data.getD offset 0, data.getD (offset + 1) 0) = (len, isLast)) :
    decodeFrom data offset message = decodeAt data (offset + 2) (.payload message len isLast) := by
  change _ = if data.length < offset + 2 + len then none
    else afterBlock data (offset + 2 + len) (message ++ (data.drop (offset + 2)).take len) isLast
  split
  · rename_i short
    refine decodeFrom_of_failure ?_
    rw [decodeBlock, if_neg (by omega), header]
    exact if_pos short
  · rename_i long
    refine decodeFrom_of_block ?_
    rw [decodeBlock, if_neg (by omega), header]
    exact if_neg long

theorem decodeBlock_more {data message message' : List UInt8} {offset offset' : ℕ} {isLast : Bool}
    (h : decodeBlock data offset message = some (offset', message', isLast)) (more : List UInt8) :
    decodeBlock (data ++ more) offset message = some (offset', message', isLast) := by
  unfold decodeBlock at h ⊢
  split at h
  · cases h
  · rename_i long
    dsimp only at h ⊢
    rw [List.length_append, if_neg (by omega), List.getD_append _ _ _ _ (by omega),
      List.getD_append _ _ _ _ (by omega)]
    split at h
    · cases h
    · rename_i longer
      rw [if_neg (by omega), List.drop_append_of_le_length (by omega),
        List.take_append_of_le_length (by rw [List.length_drop]; omega)]
      exact h

theorem decodeFrom_more {data message : List UInt8} {offset : ℕ} {result : List UInt8 × ℕ}
    (h : decodeFrom data offset message = some result) (more : List UInt8) :
    decodeFrom (data ++ more) offset message = some result := by
  induction offset, message using decodeFrom.induct data with
  | case1 offset message failed =>
    rw [decodeFrom_of_failure failed] at h
    cases h
  | case2 offset message offset' message' block =>
    rw [decodeFrom_of_block block] at h
    rw [decodeFrom_of_block (decodeBlock_more block more)]
    exact h
  | case3 offset message offset' message' isLast block notLast ih =>
    rw [decodeFrom_of_block block, if_neg notLast] at h
    rw [decodeFrom_of_block (decodeBlock_more block more), if_neg notLast]
    exact ih h

end Decoding

section Steps

variable {replies : ℕ → Reply} {s s' : State} {r : Running}

def State.moved (s : State) (data : List UInt8) (n : ℕ) : State :=
  { s with
    stream := { s.stream with unread := data.drop (s.taken + n) }
    taken := s.taken + n }

theorem blockRead_cases (s : State) (r : Running) (data : List UInt8) (offset : ℕ)
    (message : List UInt8) (isLast : Bool) :
    (∃ await, await ≠ .flush ∧
      s.blockRead r message isLast = { s with running := some { r with await } } ∧
      afterBlock data offset message isLast = decodeAt data offset await) ∨
    (∃ message', s.blockRead r message isLast = { s with
        running := none
        completed := s.completed ++ [⟨r.number, r.start, messageResult message'⟩] } ∧
      afterBlock data offset message isLast = some (message', offset)) := by
  cases isLast with
  | false => exact .inl ⟨.header message, Await.noConfusion, rfl, rfl⟩
  | true => exact .inr ⟨message, rfl, rfl⟩

theorem resume_read {data : List UInt8} (h : s.resume replies r = .ok s')
    (reading : r.await ≠ .flush) (unread : s.stream.unread = data.drop s.taken)
    (within : s.taken ≤ data.length) :
    ∃ n, s.taken + n ≤ data.length ∧
      ((∃ await, await ≠ .flush ∧
          s' = { s.moved data n with running := some { r with await } } ∧
          decodeAt data s.taken r.await = decodeAt data (s.taken + n) await) ∨
        (∃ message, s' = { s.moved data n with
            running := none
            completed := s.completed ++ [⟨r.number, r.start, messageResult message⟩] } ∧
          decodeAt data s.taken r.await = some (message, s.taken + n))) := by
  have left : s.stream.unread.length = data.length - s.taken := by
    rw [unread, List.length_drop]
  unfold State.resume at h
  cases await : r.await with
  | flush => exact absurd await reading
  | header message =>
    rw [await] at h
    dsimp only at h
    by_cases short : s.stream.unread.length < 2
    · rw [readBuffered_of_lt short] at h
      cases h
    · rw [readBuffered_of_le (by omega)] at h
      simp only [unread, getD_take_drop data (show 0 < 2 by omega),
        getD_take_drop data (show 1 < 2 by omega), Nat.add_zero, List.drop_drop] at h
      refine ⟨2, by omega, ?_⟩
      have enough : s.taken + 2 ≤ data.length := by omega
      cases header : decodeHeader (data.getD s.taken 0, data.getD (s.taken + 1) 0) with
      | mk len isLast =>
        have decoding : decodeAt data s.taken (.header message) =
            decodeAt data (s.taken + 2) (.payload message len isLast) :=
          decodeFrom_header enough header
        rw [header] at h
        dsimp only at h
        rw [decoding]
        split at h
        · cases h
          exact .inl ⟨.payload message len isLast, Await.noConfusion, rfl, rfl⟩
        · rename_i empty
          have zero : len = 0 := by omega
          have ended : decodeAt data (s.taken + 2) (.payload message len isLast) =
              afterBlock data (s.taken + 2) message isLast := by
            simp [decodeAt, zero, Nat.not_lt.mpr enough]
          cases h
          rw [ended]
          exact blockRead_cases (s.moved data 2) r data (s.taken + 2) message isLast
  | payload message len isLast =>
    rw [await] at h
    dsimp only at h
    by_cases short : s.stream.unread.length < len
    · rw [readBuffered_of_lt short] at h
      cases h
    · rw [readBuffered_of_le (by omega)] at h
      simp only [unread, List.drop_drop] at h
      refine ⟨len, by omega, ?_⟩
      have decoding : decodeAt data s.taken (.payload message len isLast) =
          afterBlock data (s.taken + len) (message ++ (data.drop s.taken).take len) isLast :=
        if_neg (by omega)
      cases h
      rw [decoding]
      exact blockRead_cases (s.moved data len) r data (s.taken + len) _ isLast

theorem blockRead_frame (s : State) (r : Running) (message : List UInt8) (isLast : Bool) :
    (s.blockRead r message isLast).sent = s.sent ∧
      (s.blockRead r message isLast).buffer = s.buffer ∧
      (s.blockRead r message isLast).stream = s.stream := by
  cases isLast <;> exact ⟨rfl, rfl, rfl⟩

theorem resume_frame (reading : r.await ≠ .flush) (h : s.resume replies r = .ok s') :
    s'.sent = s.sent ∧ s'.buffer = s.buffer ∧ s'.stream.written = s.stream.written := by
  have kept {n : ℕ} {bytes : List UInt8} {stream : MonetStream}
      (read : readBuffered s.stream n = (.ok bytes, stream)) : stream.written = s.stream.written :=
    (congrArg (fun pair => pair.2.written) read).symm
  unfold State.resume at h
  cases await : r.await with
  | flush => exact absurd await reading
  | header message =>
    rw [await] at h
    dsimp only at h
    split at h
    · cases h
    · rename_i header stream read
      split at h
      · cases h
        exact ⟨rfl, rfl, kept read⟩
      · cases h
        obtain ⟨sent, buffer, same⟩ := blockRead_frame
          { s with stream, taken := s.taken + 2 } r message
          (decodeHeader (header.getD 0 0, header.getD 1 0)).2
        exact ⟨sent, buffer, (congrArg MonetStream.written same).trans (kept read)⟩
  | payload message len isLast =>
    rw [await] at h
    dsimp only at h
    split at h
    · cases h
    · rename_i payload stream read
      cases h
      obtain ⟨sent, buffer, same⟩ := blockRead_frame
        { s with stream, taken := s.taken + len } r (message ++ payload) isLast
      exact ⟨sent, buffer, (congrArg MonetStream.written same).trans (kept read)⟩

theorem resume_flush (h : s.resume replies r = .ok s') (flushing : r.await = .flush) :
    s' = { s with
      stream := ⟨s.stream.unread ++ repliesFrom replies s.sent s.buffer.length,
        s.stream.written ++ (s.buffer.map request).flatten⟩
      buffer := []
      sent := s.sent + s.buffer.length
      running := some { r with await := .header [] } } := by
  unfold State.resume at h
  rw [flushing] at h
  exact (Except.ok.inj h).symm

theorem step_cases {e : Event} (h : step replies s e = .ok s') :
    (∃ sql, e = .begin sql ∧ s.running = none ∧ s' = { s with
      buffer := s.buffer ++ [sql]
      running := some ⟨s.sent + s.buffer.length, s.taken, .flush⟩ }) ∨
    (∃ r, e = .wake ∧ s.running = some r ∧ s.resume replies r = .ok s') ∨
    (∃ r, e = .drop ∧ s.running = some r ∧ s' = { s with running := none }) := by
  cases e with
  | begin sql =>
    cases running : s.running with
    | some r => simp [step, running] at h
    | none =>
      simp only [step, running, Except.ok.injEq] at h
      exact .inl ⟨sql, rfl, rfl, h.symm⟩
  | wake =>
    cases running : s.running with
    | none => simp [step, running] at h
    | some r =>
      simp only [step, running] at h
      exact .inr (.inl ⟨r, rfl, rfl, h⟩)
  | drop =>
    cases running : s.running with
    | none => simp [step, running] at h
    | some r =>
      simp only [step, running, Except.ok.injEq] at h
      exact .inr (.inr ⟨r, rfl, rfl, h.symm⟩)

end Steps

section Invariants

variable (replies : ℕ → Reply)

def received (count : ℕ) : List UInt8 := repliesFrom replies 0 count

theorem received_add (first count : ℕ) :
    received replies (first + count) = received replies first ++ repliesFrom replies first count := by
  have split : List.range' 0 (first + count) = List.range' 0 first ++ List.range' first count := by
    rw [← List.range'_append_1, Nat.zero_add]
  simp [received, repliesFrom, wires, split]

theorem received_succ (number : ℕ) :
    received replies (number + 1) = received replies number ++ (replies number).wire := by
  rw [received_add]
  simp [repliesFrom, wires, List.range']

theorem decodeFrom_received (number : ℕ) (more : List UInt8) :
    decodeFrom (received replies (number + 1) ++ more) (received replies number).length [] =
      some ((replies number).payload, (received replies (number + 1)).length) := by
  rw [received_succ, List.append_assoc, decodeFrom_framed (replies number).framed]
  simp

structure Suspended (s : State) (r : Running) : Prop where
  numbered : r.number + 1 = s.sent + s.buffer.length
  flushing : r.await = .flush → r.start = s.taken
  reading : r.await ≠ .flush → s.buffer = []
  decoding : decodeFrom (received replies s.sent) r.start [] =
    decodeAt (received replies s.sent) s.taken r.await

/-- The state of the stream in any run: a position in all the server has sent, from which
the running query reads and from whose past every completed one has read. -/
structure Positioned (s : State) : Prop where
  within : s.taken ≤ (received replies s.sent).length
  unread : s.stream.unread = (received replies s.sent).drop s.taken
  running : ∀ r, s.running = some r → Suspended replies s r
  completed : ∀ c ∈ s.completed, c.number < s.sent ∧ ∃ message k,
    decodeFrom (received replies s.sent) c.start [] = some (message, k) ∧
      c.result = messageResult message

theorem positioned_initial : Positioned replies initial where
  within := Nat.zero_le _
  unread := rfl
  running r h := by cases h
  completed c h := by cases h

theorem positioned_flush {s s' : State} {r : Running} (positioned : Positioned replies s)
    (running : s.running = some r) (flushing : r.await = .flush)
    (h : s.resume replies r = .ok s') : Positioned replies s' := by
  rw [resume_flush h flushing]
  have suspended := positioned.running r running
  have more := received_add replies s.sent s.buffer.length
  refine ⟨?_, ?_, fun r' hr => ?_, fun c hc => ?_⟩
  · have within := positioned.within
    simp only [more, List.length_append]
    omega
  · simp only [more, positioned.unread]
    rw [List.drop_append_of_le_length positioned.within]
  · cases hr
    have start := suspended.flushing flushing
    exact ⟨by simp [suspended.numbered], Await.noConfusion, fun _ => rfl, by rw [start]; rfl⟩
  · obtain ⟨known, message, k, decoded, result⟩ := positioned.completed c hc
    refine ⟨Nat.lt_add_right _ known, message, k, ?_, result⟩
    simp only [more]
    exact decodeFrom_more decoded _

theorem positioned_read {s s' : State} {r : Running} (positioned : Positioned replies s)
    (running : s.running = some r) (reading : r.await ≠ .flush)
    (h : s.resume replies r = .ok s') : Positioned replies s' := by
  have suspended := positioned.running r running
  have flushed := suspended.reading reading
  have numbered := suspended.numbered
  obtain ⟨n, within, goesOn | completes⟩ := resume_read h reading positioned.unread positioned.within
  · obtain ⟨await, waits, rfl, same⟩ := goesOn
    refine ⟨within, rfl, fun r' hr => ?_, positioned.completed⟩
    cases hr
    exact ⟨numbered, fun e => absurd e waits, fun _ => flushed, suspended.decoding.trans same⟩
  · obtain ⟨message, rfl, decoded⟩ := completes
    refine ⟨within, rfl, fun r' hr => (by cases hr), fun c hc => ?_⟩
    rcases List.mem_append.mp hc with old | new
    · exact positioned.completed c old
    · cases List.mem_singleton.mp new
      rw [flushed, List.length_nil] at numbered
      exact ⟨by simp only [State.moved]; omega, message, _, suspended.decoding.trans decoded, rfl⟩

theorem positioned_keep (s : State) (e : Event) (s' : State) (positioned : Positioned replies s)
    (h : step replies s e = .ok s') : Positioned replies s' := by
  obtain ⟨sql, rfl, idle, rfl⟩ | ⟨r, rfl, running, resumed⟩ | ⟨r, rfl, running, rfl⟩ := step_cases h
  · refine ⟨positioned.within, positioned.unread, fun r hr => ?_, positioned.completed⟩
    cases hr
    exact ⟨by simp [Nat.add_assoc], fun _ => rfl, fun reading => absurd rfl reading, rfl⟩
  · by_cases flushing : r.await = .flush
    · exact positioned_flush replies positioned running flushing resumed
    · exact positioned_read replies positioned running flushing resumed
  · exact ⟨positioned.within, positioned.unread, fun r hr => (by cases hr), positioned.completed⟩

/-- What holds as long as no query was dropped: each one reads from the first byte of its
own reply. -/
structure Paired (s : State) : Prop where
  idle : s.running = none → s.buffer = [] ∧ s.taken = (received replies s.sent).length
  running : ∀ r, s.running = some r → r.start = (received replies r.number).length
  completed : ∀ c ∈ s.completed, c.start = (received replies c.number).length

theorem paired_initial : Paired replies initial where
  idle _ := ⟨rfl, rfl⟩
  running r h := by cases h
  completed c h := by cases h

theorem paired_read {s s' : State} {r : Running} (positioned : Positioned replies s)
    (paired : Paired replies s) (running : s.running = some r) (reading : r.await ≠ .flush)
    (h : s.resume replies r = .ok s') : Paired replies s' := by
  have suspended := positioned.running r running
  have start := paired.running r running
  have flushed := suspended.reading reading
  obtain ⟨n, -, goesOn | completes⟩ := resume_read h reading positioned.unread positioned.within
  · obtain ⟨await, waits, rfl, same⟩ := goesOn
    refine ⟨fun none => (by cases none), fun r' hr => ?_, paired.completed⟩
    cases hr
    exact start
  · obtain ⟨message, rfl, decoded⟩ := completes
    refine ⟨fun _ => ⟨flushed, ?_⟩, fun r' hr => (by cases hr), fun c hc => ?_⟩
    -- the query has read its own reply to the end, and no other was sent
    · have numbered : r.number + 1 = s.sent := by simpa [flushed] using suspended.numbered
      have own := decodeFrom_received replies r.number []
      rw [List.append_nil, numbered, ← start, suspended.decoding, decoded] at own
      exact congrArg Prod.snd (Option.some.inj own)
    · rcases List.mem_append.mp hc with old | new
      · exact paired.completed c old
      · cases List.mem_singleton.mp new
        exact start

theorem paired_keep {s s' : State} {e : Event} (notDrop : e ≠ .drop)
    (positioned : Positioned replies s) (paired : Paired replies s)
    (h : step replies s e = .ok s') : Paired replies s' := by
  obtain ⟨sql, rfl, idle, rfl⟩ | ⟨r, rfl, running, resumed⟩ | ⟨r, rfl, -, -⟩ := step_cases h
  · obtain ⟨flushed, taken⟩ := paired.idle idle
    refine ⟨fun none => (by cases none), fun r hr => ?_, paired.completed⟩
    cases hr
    simp [flushed, taken]
  · by_cases flushing : r.await = .flush
    · rw [resume_flush resumed flushing]
      refine ⟨fun none => (by cases none), fun r' hr => ?_, paired.completed⟩
      cases hr
      exact paired.running r running
    · exact paired_read replies positioned paired running flushing resumed
  · exact absurd rfl notDrop

theorem own_reply {s : State} (positioned : Positioned replies s) (paired : Paired replies s) :
    ∀ c ∈ s.completed, c.result = messageResult (replies c.number).payload := by
  intro c hc
  obtain ⟨known, message, k, decoded, result⟩ := positioned.completed c hc
  obtain ⟨later, sent⟩ := Nat.exists_eq_add_of_lt known
  have split : received replies s.sent = received replies (c.number + 1) ++
      repliesFrom replies (c.number + 1) later := by
    rw [← received_add, sent]
    congr 1
    omega
  rw [split, paired.completed c hc, decodeFrom_received] at decoded
  have payload : (replies c.number).payload = message :=
    congrArg Prod.fst (Option.some.inj decoded)
  rw [result, payload]

end Invariants

section Runs

variable (replies : ℕ → Reply) {s s' : State} {events : List Event}

theorem positioned_of_run (run : Runs (accepts (step replies)) initial events s) :
    Positioned replies s :=
  run.invariant (positioned_keep replies) (positioned_initial replies)

theorem paired_of_run (run : Runs (accepts (step replies)) initial events s)
    (noDrop : Event.drop ∉ events) : Paired replies s := by
  have keep : ∀ past e s s', (Event.drop ∉ past → Positioned replies s ∧ Paired replies s) →
      step replies s e = .ok s' →
      Event.drop ∉ past ++ [e] → Positioned replies s' ∧ Paired replies s' := by
    intro past e s s' before h absent
    obtain ⟨positioned, paired⟩ := before fun mem => absent (by simp [mem])
    have notDrop : e ≠ .drop := fun same => absent (by simp [same])
    exact ⟨positioned_keep replies s e s' positioned h, paired_keep replies notDrop positioned paired h⟩
  have start : Event.drop ∉ [] → Positioned replies initial ∧ Paired replies initial :=
    fun _ => ⟨positioned_initial replies, paired_initial replies⟩
  exact (run.history keep [] start noDrop).2

theorem completed_of_step {e : Event} (positioned : Positioned replies s)
    (h : step replies s e = .ok s') : s.completed <+: s'.completed := by
  obtain ⟨sql, rfl, idle, rfl⟩ | ⟨r, rfl, running, resumed⟩ | ⟨r, rfl, -, rfl⟩ := step_cases h
  · exact List.prefix_rfl
  · by_cases flushing : r.await = .flush
    · rw [resume_flush resumed flushing]
    · obtain ⟨n, -, ⟨await, -, rfl, -⟩ | ⟨message, rfl, -⟩⟩ :=
        resume_read resumed flushing positioned.unread positioned.within
      · exact List.prefix_rfl
      · exact List.prefix_append _ _
  · exact List.prefix_rfl

theorem completed_of_run (positioned : Positioned replies s)
    (run : Runs (accepts (step replies)) s events s') : s.completed <+: s'.completed := by
  have keep : ∀ u e v, (Positioned replies u ∧ s.completed <+: u.completed) →
      step replies u e = .ok v → Positioned replies v ∧ s.completed <+: v.completed :=
    fun u e v before h => ⟨positioned_keep replies u e v before.1 h,
      before.2.trans (completed_of_step replies before.1 h)⟩
  exact (run.invariant keep ⟨positioned, List.prefix_rfl⟩).2

/-- In every run, a query that completes before any query was dropped returns the reply to
that very query; every other one returns the first message it finds where the connection
had stopped reading. -/
theorem completed_queries (run : Runs (accepts (step replies)) initial events s) :
    (∀ c ∈ s.completed, ∃ message k,
      decodeFrom (received replies s.sent) c.start [] = some (message, k) ∧
        c.result = messageResult message) ∧
    ∀ before after, events = before ++ after → Event.drop ∉ before → ∃ s₁,
      Runs (accepts (step replies)) initial before s₁ ∧ s₁.completed <+: s.completed ∧
        ∀ c ∈ s₁.completed, c.result = messageResult (replies c.number).payload := by
  refine ⟨fun c hc => ((positioned_of_run replies run).completed c hc).2, ?_⟩
  intro before after split noDrop
  rw [split, Runs.append_iff] at run
  obtain ⟨s₁, first, rest⟩ := run
  have positioned := positioned_of_run replies first
  exact ⟨s₁, first, completed_of_run replies positioned rest,
    own_reply replies positioned (paired_of_run replies first noDrop)⟩

def updateReply (text : Text) : Reply :=
  ⟨utf8Encode text, encodeMessage (utf8Encode text) [], framed_encodeMessage _⟩

def updateReplies (number : ℕ) : Reply :=
  if number = 0 then updateReply "&2 1 -1".toList else updateReply "&2 2 -1".toList

def dropBetween : List Event :=
  [.begin [], .wake, .wake, .wake, .begin [], .wake, .drop, .begin [], .wake, .wake, .wake]

theorem completed_queries_one : ∃ s : State,
    s.completed = [⟨0, 0, .ok (.update 1 none)⟩, ⟨2, 9, .ok (.update 2 none)⟩] ∧
    (∀ c ∈ s.completed, ∃ message k,
      decodeFrom (received updateReplies s.sent) c.start [] = some (message, k) ∧
        c.result = messageResult message) ∧
    ∀ before after, dropBetween = before ++ after → Event.drop ∉ before →
      ∃ s₁, Runs (accepts (step updateReplies)) initial before s₁ ∧
        s₁.completed <+: s.completed ∧
          ∀ c ∈ s₁.completed, c.result = messageResult (updateReplies c.number).payload := by
  have folded : (dropBetween.foldlM (step updateReplies) initial).map State.completed =
      .ok [⟨0, 0, .ok (.update 1 none)⟩, ⟨2, 9, .ok (.update 2 none)⟩] := by decide +kernel
  obtain ⟨s, reached, completed⟩ := map_eq_ok.mp folded
  exact ⟨s, completed, completed_queries updateReplies (foldlM_ok_iff.mp reached)⟩

theorem dropped_reply_leaks :
    (∃ s, Runs (accepts (step updateReplies)) initial
        [.begin [], .wake, .drop, .begin [], .wake, .wake, .wake] s ∧
      s.completed = [⟨1, 0, .ok (.update 1 none)⟩] ∧
      messageResult (updateReplies 1).payload = .ok (.update 2 none)) ∧
    ¬ ∀ replies events s, Runs (accepts (step replies)) initial events s → ∀ c ∈ s.completed,
      c.result = messageResult (replies c.number).payload ∨ ∃ e, c.result = .error e := by
  have folded : ([.begin [], .wake, .drop, .begin [], .wake, .wake, .wake].foldlM
      (step updateReplies) initial).map State.completed =
        .ok [⟨1, 0, .ok (.update 1 none)⟩] := by decide +kernel
  have own : messageResult (updateReplies 1).payload = .ok (.update 2 none) := by decide +kernel
  obtain ⟨s, reached, completed⟩ := map_eq_ok.mp folded
  have run := foldlM_ok_iff.mp reached
  refine ⟨⟨s, run, completed, own⟩, fun every => ?_⟩
  rcases every _ _ s run ⟨1, 0, .ok (.update 1 none)⟩ (by simp [completed]) with same | ⟨e, failed⟩
  · rw [own] at same
    exact absurd same (by decide)
  · cases failed

end Runs

section Uncancelled

variable {replies : ℕ → Reply}

def State.finished (s : State) (r : Running) (stream : MonetStream) (taken : ℕ)
    (message : List UInt8) : State :=
  { s with
    stream := stream
    taken := taken
    running := none
    completed := s.completed ++ [⟨r.number, r.start, messageResult message⟩] }

theorem step_wake {s : State} {r : Running} (running : s.running = some r) :
    step replies s .wake = s.resume replies r := by
  simp [step, running]

theorem resume_header {s : State} {r : Running} {message bytes : List UInt8}
    {stream : MonetStream} (header : r.await = .header message)
    (read : readBuffered s.stream 2 = (.ok bytes, stream)) :
    s.resume replies r =
      let (len, isLast) := decodeHeader (bytes.getD 0 0, bytes.getD 1 0)
      let s := { s with stream, taken := s.taken + 2 }
      if len > 0 then .ok { s with running := some { r with await := .payload message len isLast } }
      else .ok (s.blockRead r message isLast) := by
  rw [State.resume, header]
  dsimp only
  rw [read]

theorem resume_payload {s : State} {r : Running} {message payload : List UInt8} {len : ℕ}
    {isLast : Bool} {stream : MonetStream} (await : r.await = .payload message len isLast)
    (read : readBuffered s.stream len = (.ok payload, stream)) :
    s.resume replies r = .ok ({ s with stream, taken := s.taken + len }.blockRead r
      (message ++ payload) isLast) := by
  rw [State.resume, await]
  dsimp only
  rw [read]

theorem wakes_of_readBlock {stream : MonetStream} {message message' : List UInt8} {isLast : Bool}
    {s : State} {r : Running} (h : readBlock s.stream message = (.ok (message', isLast), stream))
    (running : s.running = some r) (header : r.await = .header message) :
    ∃ n taken, Runs (accepts (step replies)) s (List.replicate n .wake)
      ({ s with stream, taken }.blockRead r message' isLast) := by
  unfold readBlock at h
  split at h
  · cases h
  · rename_i bytes afterHeader readHeader
    have first : step replies s .wake = _ :=
      (step_wake running).trans (resume_header header readHeader)
    dsimp only at h first
    split at h
    · rename_i nonempty
      rw [if_pos nonempty] at first
      split at h
      · cases h
      · rename_i payload afterPayload readPayload
        let len := (decodeHeader (bytes.getD 0 0, bytes.getD 1 0)).1
        let last := (decodeHeader (bytes.getD 0 0, bytes.getD 1 0)).2
        let r₁ : Running := { r with await := .payload message len last }
        let s₁ : State :=
          { s with stream := afterHeader, taken := s.taken + 2, running := some r₁ }
        have second : step replies s₁ .wake = _ :=
          (step_wake (r := r₁) rfl).trans (resume_payload rfl readPayload)
        cases h
        refine ⟨2, s.taken + 2 + len, .next first (.next second (Runs.nil_iff.mpr ?_))⟩
        -- last block or not, nothing is left of the wait for the payload
        unfold State.blockRead
        split <;> rfl
    · rename_i empty
      rw [if_neg empty] at first
      cases h
      exact ⟨1, _, .next first (.refl _)⟩

theorem wakes_of_readFrom {stream after : MonetStream} {message m : List UInt8}
    (h : readFrom stream message = (.ok m, after)) {s : State} {r : Running}
    (running : s.running = some r) (header : r.await = .header message)
    (holds : s.stream = stream) :
    ∃ n taken, Runs (accepts (step replies)) s (List.replicate n .wake)
      (s.finished r after taken m) := by
  induction stream, message using readFrom.induct generalizing s r with
  | case1 stream message e stream' failed =>
    rw [readFrom_of_failure failed] at h
    cases h
  | case2 stream message message' stream' block =>
    rw [readFrom_of_block block, if_pos rfl] at h
    cases h
    subst holds
    exact wakes_of_readBlock block running header
  | case3 stream message message' isLast stream' block notLast ih =>
    rw [readFrom_of_block block, if_neg notLast] at h
    subst holds
    obtain ⟨n, taken, first⟩ := wakes_of_readBlock block running header
    have unfinished : isLast = false := Bool.eq_false_iff.mpr notLast
    subst unfinished
    let r₁ : Running := { r with await := .header message' }
    let s₁ : State := { s with stream := stream', taken, running := some r₁ }
    obtain ⟨k, taken', rest⟩ := ih h (s := s₁) (r := r₁) rfl rfl rfl
    refine ⟨n + k, taken', ?_⟩
    rw [← List.replicate_append_replicate, Runs.append_iff]
    exact ⟨s₁, first, rest⟩

/-- Not cancelled, a query on an idle connection is `executeQuery`. -/
theorem run_executeQuery {s : State} (idle : s.running = none) (flushed : s.buffer = [])
    (sql : Text) {message : List UInt8} {after : MonetStream}
    (read : readMessage ⟨s.stream.unread ++ (replies s.sent).wire,
      s.stream.written ++ request sql⟩ = (.ok message, after)) :
    ∃ n s', Runs (accepts (step replies)) s (.begin sql :: List.replicate n .wake) s' ∧
      s'.running = none ∧
      s'.completed = s.completed ++ [⟨s.sent, s.taken, (executeQuery
        ⟨s.stream.unread ++ (replies s.sent).wire, s.stream.written⟩ sql).1⟩] ∧
      s'.stream = (executeQuery
        ⟨s.stream.unread ++ (replies s.sent).wire, s.stream.written⟩ sql).2 := by
  have executed : executeQuery ⟨s.stream.unread ++ (replies s.sent).wire, s.stream.written⟩ sql =
      (messageResult message, after) := executeQuery_of_message read
  let r : Running := ⟨s.sent, s.taken, .flush⟩
  let s₁ : State := { s with buffer := [sql], running := some r }
  have begun : step replies s (.begin sql) = .ok s₁ := by simp [step, idle, flushed, s₁, r]
  let s₂ : State := { s with
    stream := ⟨s.stream.unread ++ (replies s.sent).wire, s.stream.written ++ request sql⟩
    buffer := [], sent := s.sent + 1, running := some { r with await := .header [] } }
  have flush : step replies s₁ .wake = .ok s₂ := by
    simp [step_wake (r := r) (s := s₁) rfl, State.resume, r, s₁, s₂, repliesFrom, wires]
  obtain ⟨n, taken, reads⟩ : ∃ n taken, Runs (accepts (step replies)) s₂ (List.replicate n .wake)
      (s₂.finished { r with await := .header [] } after taken message) :=
    wakes_of_readFrom read rfl rfl rfl
  refine ⟨n + 1, _, .next begun (.next flush reads), rfl, ?_, ?_⟩
  · rw [executed]
    rfl
  · rw [executed]
    rfl

end Uncancelled

end SqlxMonetdb.Cancellation
