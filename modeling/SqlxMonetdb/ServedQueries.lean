import SqlxMonetdb.DroppedQueries
import SqlxMonetdb.Arrivals

set_option autoImplicit false

/-!
# Queries and their server

The client together with a server that has a state of its own. Requests and replies are
in flight in both directions and arrive in pieces; the server takes statements off the
bytes it has as soon as they are complete, in any order with the steps of the client.
-/
namespace SqlxMonetdb.ServedQueries
open TextPrimitives DriverError StreamReader Framing FramingBlocks FramingPrefixes MessageStream
open Response Connection LabelledRuns Session Cancellation DroppedQueries Arrivals

variable {σ : Type}

section Machine

/-- `outgoing` are the bytes of requests on their way, `held` those the server has and took
no statement from yet, and `inFlight` the bytes of replies on their way. -/
structure World (σ : Type) where
  client : State
  outgoing : List UInt8
  held : List UInt8
  data : σ
  executed : List Text
  inFlight : List UInt8

def opened (data : σ) : World σ := ⟨initial, [], [], data, [], []⟩

inductive WorldEvent where
  | client (event : Event)
  | send (count : ℕ)
  | execute
  | arrive (count : ℕ)
  deriving DecidableEq

def WorldEvent.delivery : WorldEvent → Option NetEvent
  | .client event => some (.client event)
  | .arrive count => some (.arrive count)
  | .send _ | .execute => none

def clientEvents (events : List WorldEvent) : List Event :=
  (events.filterMap WorldEvent.delivery).filterMap NetEvent.visible

def asked (events : List WorldEvent) : List Text := begun (clientEvents events)

/-- What stands for the replies where a step of the client does not depend on them. -/
def silent (_ : ℕ) : Reply := ⟨[], encodeMessage [] [], framed_encodeMessage []⟩

/-- The server answers a statement from its state and changes the state with it. -/
def act (serve : σ → Text → Reply × σ) (w : World σ) : WorldEvent → Except Unit (World σ)
  | .client .wake =>
    match w.client.running with
    | none => .error ()
    | some r =>
      if r.await = .flush then
        .ok { w with
          client := handedOver w.client r
          outgoing := w.outgoing ++ (w.client.buffer.map request).flatten }
      else (w.client.resume silent r).map fun client => { w with client }
  | .client event => (step silent w.client event).map fun client => { w with client }
  | .send count =>
    if w.outgoing.length < count then .error ()
    else .ok { w with
      outgoing := w.outgoing.drop count
      held := w.held ++ w.outgoing.take count }
  | .execute =>
    match nextStatement w.held with
    | (.ok (some sql), held) =>
      let (reply, data) := serve w.data sql
      .ok { w with
        held
        data
        executed := w.executed ++ [sql]
        inFlight := w.inFlight ++ reply.wire }
    | _ => .error ()
  | .arrive count =>
    if w.inFlight.length < count then .error ()
    else .ok { w with
      client := withMore w.client (w.inFlight.take count)
      inFlight := w.inFlight.drop count }

end Machine

section Requests

theorem nextStatement_first {held outgoing rest : List UInt8} {queries : List Text}
    {statement : Option Text} (bytes : held ++ outgoing = (queries.map request).flatten)
    (h : nextStatement held = (.ok statement, rest)) :
    ∃ sql later, queries = sql :: later ∧ statement = some sql ∧
      rest ++ outgoing = (later.map request).flatten := by
  unfold nextStatement andThen nextMessage at h
  cases decoded : decodeMessage held with
  | none =>
    rw [decoded] at h
    cases h
  | some found =>
    obtain ⟨message, k⟩ := found
    rw [decoded] at h
    have within := (decodeMessage_iff.mp decoded).1
    have whole := decodeMessage_append decoded outgoing
    rw [bytes] at whole
    cases queries with
    | nil =>
      have nothing : decodeMessage [] = none := decodeFrom_of_failure rfl
      rw [List.map_nil, List.flatten_nil, nothing] at whole
      cases whole
    | cons sql later =>
      rw [List.map_cons, List.flatten_cons, request,
        decodeMessage_framed (framed_encodeMessage (encodeQuery sql)), Option.some.injEq,
        Prod.mk.injEq] at whole
      obtain ⟨rfl, rfl⟩ := whole
      simp only [statementOf_encodeQuery, Prod.mk.injEq, Except.ok.injEq] at h
      obtain ⟨rfl, rfl⟩ := h
      refine ⟨sql, later, rfl, rfl, ?_⟩
      rw [← List.drop_append_of_le_length within, bytes, List.map_cons, List.flatten_cons, request,
        List.drop_left]

end Requests

section Refinement

def Answers (serve : σ → Text → Reply × σ) (data : σ) (queries : List Text)
    (replies : ℕ → Reply) : Prop :=
  ∀ (i : ℕ) reply, (outputs serve queries data).1[i]? = some reply → replies i = reply

/-- The connection on which every request that was flushed is answered already. -/
def World.net (w : World σ) (replies : ℕ → Reply) : Net :=
  ⟨w.client, w.inFlight ++
    repliesFrom replies w.executed.length (w.client.sent - w.executed.length)⟩

/-- Every statement asked for was executed, is among the `queries` under way or waits in
the buffer of the client. -/
structure Underway (serve : σ → Text → Reply × σ) (data : σ) (all : List Text) (w : World σ)
    (queries : List Text) : Prop where
  accounted : all = w.executed ++ queries ++ w.client.buffer
  sent : w.client.sent = w.executed.length + queries.length
  bytes : w.held ++ w.outgoing = (queries.map request).flatten
  data : w.data = (outputs serve w.executed data).2

variable {serve : σ → Text → Reply × σ} {data : σ} {replies : ℕ → Reply} {w w' : World σ}
  {s s' : State} {r : Running} {all queries : List Text} {past events : List WorldEvent}

theorem Answers.earlier (answers : Answers serve data all replies) (first : queries <+: all) :
    Answers serve data queries replies := by
  obtain ⟨more, rfl⟩ := first
  intro i reply found
  refine answers i reply ?_
  obtain ⟨within, -⟩ := List.getElem?_eq_some_iff.mp found
  rw [outputs_append, List.getElem?_append_left within]
  exact found

theorem repliesFrom_add (replies : ℕ → Reply) (first count more : ℕ) :
    repliesFrom replies first (count + more) =
      repliesFrom replies first count ++ repliesFrom replies (first + count) more := by
  simp [repliesFrom, wires, ← List.range'_append_1]

theorem repliesFrom_one (replies : ℕ → Reply) (first : ℕ) :
    repliesFrom replies first 1 = (replies first).wire := by
  simp [repliesFrom, wires]

theorem resume_any (reading : r.await ≠ .flush) (replies replies' : ℕ → Reply) :
    s.resume replies r = s.resume replies' r := by
  unfold State.resume
  cases await : r.await with
  | flush => exact absurd await reading
  | header message => rfl
  | payload message len isLast => rfl

theorem asked_append (past more : List WorldEvent) :
    asked (past ++ more) = asked past ++ asked more := by
  simp only [asked, clientEvents, begun, List.filterMap_append]

theorem asked_quiet {e : WorldEvent} (quiet : asked [e] = []) :
    asked (past ++ [e]) = asked past := by
  rw [asked_append, quiet, List.append_nil]

theorem net_flush (running : w.client.running = some r) (flushing : r.await = .flush)
    (underway : Underway serve data all w queries) (outgoing : List UInt8) :
    deliver replies (w.net replies) (.client .wake) =
      .ok ({ w with client := handedOver w.client r, outgoing }.net replies) := by
  have later : w.client.sent + w.client.buffer.length - w.executed.length =
      (w.client.sent - w.executed.length) + w.client.buffer.length := by
    have sent := underway.sent
    omega
  have first : w.executed.length + (w.client.sent - w.executed.length) = w.client.sent := by
    have sent := underway.sent
    omega
  simp only [deliver, World.net, running, flushing, if_true, handedOver, later, repliesFrom_add,
    first, List.append_assoc]

theorem Underway.flush (underway : Underway serve data all w queries) :
    Underway serve data all { w with
      client := handedOver w.client r
      outgoing := w.outgoing ++ (w.client.buffer.map request).flatten }
      (queries ++ w.client.buffer) where
  accounted := by
    rw [underway.accounted]
    simp [handedOver]
  sent := by
    rw [List.length_append, ← Nat.add_assoc, ← underway.sent]
    rfl
  bytes := by
    rw [← List.append_assoc, underway.bytes, ← List.flatten_append, ← List.map_append]
  data := underway.data

theorem Underway.frame (underway : Underway serve data all w queries)
    (sent : w'.client.sent = w.client.sent) (buffer : w'.client.buffer = w.client.buffer)
    (executed : w'.executed = w.executed) (bytes : w'.held ++ w'.outgoing = w.held ++ w.outgoing)
    (same : w'.data = w.data) : Underway serve data all w' queries where
  accounted := by rw [executed, buffer, underway.accounted]
  sent := by rw [executed, sent, underway.sent]
  bytes := bytes.trans underway.bytes
  data := by rw [executed, same, underway.data]

theorem Underway.begin (underway : Underway serve data all w queries) (sql : Text)
    (running : Option Running) :
    Underway serve data (all ++ [sql]) { w with
      client := { w.client with buffer := w.client.buffer ++ [sql], running } } queries where
  accounted := by
    rw [underway.accounted]
    simp
  sent := underway.sent
  bytes := underway.bytes
  data := underway.data

/-- What holds after any run: the statements are accounted for, and to the client the world
is a network on which the server has answered everything that was flushed. -/
structure Served (serve : σ → Text → Reply × σ) (data : σ) (past : List WorldEvent)
    (w : World σ) : Prop where
  underway : ∃ queries, Underway serve data (asked past) w queries
  run : ∀ replies, Answers serve data (asked past) replies →
    Runs (accepts (deliver replies)) start (past.filterMap WorldEvent.delivery) (w.net replies)

theorem served_opened (serve : σ → Text → Reply × σ) (data : σ) :
    Served serve data [] (opened data) where
  underway := ⟨[], rfl, rfl, rfl, rfl⟩
  run _ _ := .refl _

theorem Served.step {e : WorldEvent} {d : NetEvent} (served : Served serve data past w)
    (visible : e.delivery = some d)
    (underway : ∃ queries, Underway serve data (asked (past ++ [e])) w' queries)
    (moved : ∀ replies, deliver replies (w.net replies) d = .ok (w'.net replies)) :
    Served serve data (past ++ [e]) w' := by
  refine ⟨underway, fun replies answers => ?_⟩
  rw [asked_append] at answers
  have run := served.run replies (answers.earlier (List.prefix_append _ _))
  rw [List.filterMap_append, List.filterMap_cons_some visible]
  exact Runs.append_iff.mpr ⟨_, run, .next (moved replies) (.refl _)⟩

theorem Served.stutter {e : WorldEvent} (served : Served serve data past w)
    (hidden : e.delivery = none)
    (underway : ∃ queries, Underway serve data (asked past) w' queries)
    (same : ∀ replies, Answers serve data (asked past) replies → w'.net replies = w.net replies) :
    Served serve data (past ++ [e]) w' := by
  have quiet : asked (past ++ [e]) = asked past :=
    asked_quiet (by simp [asked, clientEvents, hidden, begun])
  refine ⟨by rwa [quiet], fun replies answers => ?_⟩
  rw [quiet] at answers
  rw [List.filterMap_append, List.filterMap_cons_none hidden, List.filterMap_nil, List.append_nil,
    same replies answers]
  exact served.run replies answers

theorem served_wake (served : Served serve data past w)
    (h : act serve w (.client .wake) = .ok w') :
    Served serve data (past ++ [.client .wake]) w' := by
  obtain ⟨queries, underway⟩ := served.underway
  have quiet : asked (past ++ [.client .wake]) = asked past := asked_quiet rfl
  simp only [act] at h
  split at h
  · cases h
  · rename_i r running
    split at h
    · rename_i flushing
      cases h
      refine served.step rfl ⟨queries ++ w.client.buffer, ?_⟩ fun replies =>
        net_flush running flushing underway _
      rw [quiet]
      exact underway.flush
    · rename_i reading
      obtain ⟨client, resumed, rfl⟩ := map_eq_ok.mp h
      obtain ⟨sent, buffer, -⟩ := resume_frame reading resumed
      refine served.step rfl ⟨queries, ?_⟩ fun replies => ?_
      · rw [quiet]
        exact underway.frame sent buffer rfl rfl rfl
      · rw [resume_any reading silent replies] at resumed
        simp [deliver, World.net, running, reading, resumed, sent, Except.map]

theorem served_begin {sql : Text} (served : Served serve data past w)
    (h : act serve w (.client (.begin sql)) = .ok w') :
    Served serve data (past ++ [.client (.begin sql)]) w' := by
  obtain ⟨queries, underway⟩ := served.underway
  obtain ⟨client, begins, rfl⟩ := map_eq_ok.mp h
  obtain ⟨sql', same, idle, rfl⟩ | ⟨r, same, -⟩ | ⟨r, same, -⟩ := step_cases begins
  · cases same
    refine served.step rfl ⟨queries, ?_⟩ fun replies => ?_
    · rw [asked_append]
      exact underway.begin sql _
    · simp [deliver, step, World.net, idle, Except.map]
  · cases same
  · cases same

theorem served_drop (served : Served serve data past w)
    (h : act serve w (.client .drop) = .ok w') :
    Served serve data (past ++ [.client .drop]) w' := by
  obtain ⟨queries, underway⟩ := served.underway
  obtain ⟨client, dropped, rfl⟩ := map_eq_ok.mp h
  obtain ⟨sql, same, -⟩ | ⟨r, same, -⟩ | ⟨r, -, running, rfl⟩ := step_cases dropped
  · cases same
  · cases same
  · refine served.step rfl ⟨queries, ?_⟩ fun replies => ?_
    · rw [asked_quiet rfl]
      exact underway.frame rfl rfl rfl rfl rfl
    · simp [deliver, step, World.net, running, Except.map]

theorem served_send {count : ℕ} (served : Served serve data past w)
    (h : act serve w (.send count) = .ok w') : Served serve data (past ++ [.send count]) w' := by
  obtain ⟨queries, underway⟩ := served.underway
  simp only [act] at h
  split at h
  · cases h
  · cases h
    exact served.stutter rfl ⟨queries, underway.frame rfl rfl rfl (by simp) rfl⟩ fun _ _ => rfl

theorem served_arrive {count : ℕ} (served : Served serve data past w)
    (h : act serve w (.arrive count) = .ok w') :
    Served serve data (past ++ [.arrive count]) w' := by
  obtain ⟨queries, underway⟩ := served.underway
  simp only [act] at h
  split at h
  · cases h
  · rename_i enough
    cases h
    have within : count ≤ w.inFlight.length := Nat.not_lt.mp enough
    refine served.step rfl ⟨queries, ?_⟩ fun replies => ?_
    · rw [asked_quiet rfl]
      exact underway.frame rfl rfl rfl rfl rfl
    · rw [deliver, if_neg (by simp only [World.net, List.length_append]; omega)]
      simp only [World.net, withMore, List.take_append_of_le_length within,
        List.drop_append_of_le_length within]

theorem Underway.answer {sql : Text} {later : List Text}
    (underway : Underway serve data all w (sql :: later)) :
    (outputs serve all data).1[w.executed.length]? = some (serve w.data sql).1 := by
  have known := outputs_length serve w.executed data
  rw [underway.accounted, List.append_assoc, outputs_append,
    List.getElem?_append_right (by omega), known, Nat.sub_self, ← underway.data]
  rfl

theorem Underway.execute {sql : Text} {later : List Text} {held inFlight : List UInt8}
    (underway : Underway serve data all w (sql :: later))
    (rest : held ++ w.outgoing = (later.map request).flatten) :
    Underway serve data all { w with
      held
      data := (serve w.data sql).2
      executed := w.executed ++ [sql]
      inFlight } later where
  accounted := by
    rw [underway.accounted]
    simp
  sent := by
    rw [underway.sent, List.length_append, List.length_cons, List.length_singleton]
    omega
  bytes := rest
  data := by
    rw [outputs_append]
    dsimp only
    rw [← underway.data]
    rfl

theorem net_execute {sql : Text} {later : List Text}
    (underway : Underway serve data all w (sql :: later))
    (answers : Answers serve data all replies) (held : List UInt8) :
    World.net { w with
      held
      data := (serve w.data sql).2
      executed := w.executed ++ [sql]
      inFlight := w.inFlight ++ (serve w.data sql).1.wire } replies = w.net replies := by
  have reply : replies w.executed.length = (serve w.data sql).1 :=
    answers _ _ underway.answer
  have left : w.client.sent - w.executed.length = 1 + later.length := by
    rw [underway.sent, List.length_cons]
    omega
  have fewer : w.client.sent - (w.executed.length + 1) = later.length := by omega
  simp only [World.net, List.length_append, List.length_singleton, left, fewer, repliesFrom_add,
    repliesFrom_one, reply, List.append_assoc]

theorem served_execute (served : Served serve data past w) (h : act serve w .execute = .ok w') :
    Served serve data (past ++ [.execute]) w' := by
  obtain ⟨queries, underway⟩ := served.underway
  simp only [act] at h
  split at h
  · rename_i sql held taken
    cases h
    obtain ⟨sql', later, rfl, same, rest⟩ := nextStatement_first underway.bytes taken
    cases same
    exact served.stutter rfl ⟨later, underway.execute rest⟩ fun replies answers =>
      net_execute underway answers held
  · cases h

theorem served_keep (past : List WorldEvent) (e : WorldEvent) (w w' : World σ)
    (served : Served serve data past w) (h : act serve w e = .ok w') :
    Served serve data (past ++ [e]) w' := by
  cases e with
  | client event =>
    cases event with
    | begin sql => exact served_begin served h
    | wake => exact served_wake served h
    | drop => exact served_drop served h
  | send count => exact served_send served h
  | execute => exact served_execute served h
  | arrive count => exact served_arrive served h

theorem served_of_run (run : Runs (accepts (act serve)) (opened data) events w) :
    Served serve data events w :=
  run.history served_keep [] (served_opened serve data)

end Refinement

section Serial

variable {serve : σ → Text → Reply × σ} {data : σ} {replies : ℕ → Reply} {w w' : World σ}
  {s s' : State} {r : Running} {e : Event} {queries : List Text} {events : List WorldEvent}

theorem answers_exist (serve : σ → Text → Reply × σ) (data : σ) (queries : List Text) :
    ∃ replies, Answers serve data queries replies :=
  ⟨fun i => ((outputs serve queries data).1[i]?).getD (silent i), fun i reply found => by
    simp [found]⟩

theorem not_drop_clientEvents (noDrop : .client .drop ∉ events) :
    Event.drop ∉ clientEvents events := by
  refine not_drop_visible fun mem => ?_
  obtain ⟨e, inside, seen⟩ := List.mem_filterMap.mp mem
  cases e with
  | client event =>
    cases seen
    exact noDrop inside
  | send count => cases seen
  | execute => cases seen
  | arrive count => cases seen

theorem framed_pos {wire payload : List UInt8} (framed : Framed wire payload) :
    0 < wire.length := by
  cases framed with
  | last short => simp [headerBytes_length]
  | more short tail => simp [headerBytes_length]

theorem le_of_received {n m : ℕ}
    (h : (received replies n).length ≤ (received replies m).length) : n ≤ m := by
  by_contra fewer
  obtain ⟨k, rfl⟩ := Nat.exists_eq_add_of_lt (Nat.not_le.mp fewer)
  have wire := framed_pos (replies m).framed
  rw [show m + k + 1 = m + 1 + k by omega, received_add, received_succ, List.length_append,
    List.length_append] at h
  omega

theorem started_keep (positioned : Positioned replies s)
    (started : ∀ r, s.running = some r → r.start ≤ s.taken) (h : step replies s e = .ok s') :
    ∀ r, s'.running = some r → r.start ≤ s'.taken := by
  obtain ⟨sql, rfl, -, rfl⟩ | ⟨r, rfl, running, resumed⟩ | ⟨r, rfl, -, rfl⟩ := step_cases h
  · rintro r ⟨⟩
    exact le_refl _
  · have before := started r running
    by_cases flushing : r.await = .flush
    · rw [resume_flush resumed flushing]
      rintro r' ⟨⟩
      exact before
    · obtain ⟨n, -, ⟨await, -, rfl, -⟩ | ⟨message, rfl, -⟩⟩ :=
        resume_read resumed flushing positioned.unread positioned.within
      · rintro r' ⟨⟩
        exact Nat.le_add_right_of_le before
      · rintro r' ⟨⟩
  · rintro r' ⟨⟩

theorem started_of_run {events : List Event}
    (run : Runs (accepts (step replies)) initial events s) :
    ∀ r, s.running = some r → r.start ≤ s.taken := by
  have kept := run.invariant (I := fun s => Positioned replies s ∧
      ∀ r, s.running = some r → r.start ≤ s.taken)
    (fun s e s' before h => ⟨positioned_keep replies s e s' before.1 h,
      started_keep before.1 before.2 h⟩)
    ⟨positioned_initial replies, fun r running => by cases running⟩
  exact kept.2

theorem taken_executed (positioned : Positioned replies (w.net replies).whole)
    (known : w.executed.length ≤ w.client.sent) :
    w.client.taken ≤ (received replies w.executed.length).length := by
  have within : w.client.taken ≤ (received replies w.client.sent).length := positioned.within
  have unread := congrArg List.length positioned.unread
  simp only [World.net, Net.whole, withMore, List.length_append, List.length_drop] at unread
  have split := congrArg List.length
    (received_add replies w.executed.length (w.client.sent - w.executed.length))
  rw [Nat.add_sub_cancel' known, List.length_append] at split
  omega

structure Undropped (replies : ℕ → Reply) (w : World σ) : Prop where
  positioned : Positioned replies (w.net replies).whole
  paired : Paired replies (w.net replies).whole
  counted : w.client.sent + w.client.buffer.length =
    w.client.completed.length + w.client.running.toList.length
  results : ∀ (i : ℕ) c, w.client.completed[i]? = some c →
    c.result = messageResult (replies i).payload
  started : ∀ r, w.client.running = some r → r.start ≤ w.client.taken

theorem undropped_of_run (run : Runs (accepts (act serve)) (opened data) events w)
    (answers : Answers serve data (asked events) replies) (noDrop : .client .drop ∉ events) :
    Undropped replies w := by
  have whole : Runs (accepts (step replies)) initial (clientEvents events) (w.net replies).whole :=
    whole_of_run ((served_of_run run).run replies answers)
  have quiet := not_drop_clientEvents noDrop
  have undropped : Runs (accepts (dropping replies unread)) initial (clientEvents events)
      (w.net replies).whole := dropping_of_run whole quiet
  obtain ⟨positioned, behind⟩ := behind_unread undropped
  have counted := behind.counted
  rw [List.count_eq_zero.mpr quiet, Nat.add_zero] at counted
  have started := started_of_run whole
  exact ⟨positioned, paired_of_run replies whole quiet, counted, (replies_lag undropped).1, started⟩

theorem completed_executed (undropped : Undropped replies w)
    (underway : Underway serve data (asked events) w queries) :
    w.client.completed.length ≤ w.executed.length := by
  have known : w.executed.length ≤ w.client.sent := by
    rw [underway.sent]
    exact Nat.le_add_right _ _
  have taken := taken_executed undropped.positioned known
  have counted := undropped.counted
  cases running : w.client.running with
  | none =>
    obtain ⟨flushed, all⟩ := undropped.paired.idle running
    have empty : w.client.buffer = [] := flushed
    have last : w.client.taken = (received replies w.client.sent).length := all
    have sent := le_of_received (last ▸ taken)
    rw [running, empty, List.length_nil, Option.toList_none, List.length_nil] at counted
    omega
  | some r =>
    have start := undropped.paired.running r running
    have number := (undropped.positioned.running r running).numbered
    have before := undropped.started r running
    have own := le_of_received (start ▸ before.trans taken)
    rw [running, Option.toList_some, List.length_singleton] at counted
    have same : r.number + 1 = w.client.sent + w.client.buffer.length := number
    omega

/-- In every run the server executes the statements in the order they were asked for, each
once, whatever is dropped; and where nothing is dropped, the results of the queries are those
of a serial run of the server. -/
theorem serial_execution (run : Runs (accepts (act serve)) (opened data) events w) :
    w.executed <+: asked events ∧ w.data = (outputs serve w.executed data).2 ∧
    (.client .drop ∉ events →
      w.client.completed.map Completed.result =
        (outputs serve (w.executed.take w.client.completed.length) data).1.map
          fun reply => messageResult reply.payload) := by
  obtain ⟨queries, underway⟩ := (served_of_run run).underway
  have first : w.executed <+: asked events := by
    rw [underway.accounted, List.append_assoc]
    exact List.prefix_append _ _
  refine ⟨first, underway.data, fun noDrop => ?_⟩
  obtain ⟨replies, answers⟩ := answers_exist serve data (asked events)
  have undropped := undropped_of_run run answers noDrop
  have executed := completed_executed undropped underway
  have done := List.take_prefix w.client.completed.length w.executed
  have prior := answers.earlier (done.trans first)
  have known := outputs_length serve (w.executed.take w.client.completed.length) data
  rw [List.length_take, Nat.min_eq_left executed] at known
  refine List.ext_getElem (by simp [known]) fun i inside _ => ?_
  rw [List.length_map] at inside
  have result := undropped.results i _ (List.getElem?_eq_getElem inside)
  have reply := prior i _ (List.getElem?_eq_getElem (by omega))
  rw [List.getElem_map, List.getElem_map, result, reply]

def countingServer (count : ℕ) (_ : Text) : Reply × ℕ := (updateReplies count, count + 1)

/-- Both requests and both replies come in pieces, and the second query is on its way when
the first is done. -/
def twoServed : List WorldEvent :=
  [.client (.begin ['A']), .client .wake, .send 6, .execute, .arrive 5, .client .wake, .arrive 4,
    .client .wake, .client (.begin ['B']), .client .wake, .send 2, .send 4, .execute, .arrive 9,
    .client .wake, .client .wake]

theorem serial_execution_two : ∃ w : World ℕ, w.executed = [['A'], ['B']] ∧ w.data = 2 ∧
    w.client.completed.map Completed.result = [.ok (.update 1 none), .ok (.update 2 none)] ∧
    w.executed <+: asked twoServed ∧ w.data = (outputs countingServer w.executed 0).2 ∧
    w.client.completed.map Completed.result =
      (outputs countingServer (w.executed.take w.client.completed.length) 0).1.map
        fun reply => messageResult reply.payload := by
  have folded : (twoServed.foldlM (act countingServer) (opened 0)).map
      (fun w => (w.executed, w.data, w.client.completed.map Completed.result)) =
        .ok ([['A'], ['B']], 2, [.ok (.update 1 none), .ok (.update 2 none)]) := by
    decide +kernel
  obtain ⟨w, reached, same⟩ := map_eq_ok.mp folded
  obtain ⟨executed, rest⟩ := Prod.mk.inj same
  obtain ⟨data, results⟩ := Prod.mk.inj rest
  obtain ⟨order, state, serial⟩ := serial_execution (foldlM_ok_iff.mp reached)
  exact ⟨w, executed, data, results, order, state, serial (by decide)⟩

end Serial

section Progress

variable {serve : σ → Text → Reply × σ} {data : σ} {replies : ℕ → Reply} {w w' : World σ}
  {s s' v : State} {r : Running} {events more : List WorldEvent}

theorem executes_all (serve : σ → Text → Reply × σ) (queries : List Text) (w : World σ)
    (held : w.held = (queries.map request).flatten) :
    ∃ w', Runs (accepts (act serve)) w (List.replicate queries.length .execute) w' ∧
      w'.client = w.client ∧ w'.executed = w.executed ++ queries := by
  induction queries generalizing w with
  | nil => exact ⟨w, .refl w, rfl, (List.append_nil _).symm⟩
  | cons sql later ih =>
    have taken : nextStatement w.held = (.ok (some sql), (later.map request).flatten) := by
      rw [held]
      exact nextStatement_exact sql _
    let w₁ : World σ := { w with
      held := (later.map request).flatten
      data := (serve w.data sql).2
      executed := w.executed ++ [sql]
      inFlight := w.inFlight ++ (serve w.data sql).1.wire }
    have executed : act serve w .execute = .ok w₁ := by
      simp only [act, taken]
      rfl
    obtain ⟨w', run, client, log⟩ := ih w₁ rfl
    exact ⟨w', .next executed run, client, log.trans (List.append_assoc _ _ _)⟩

theorem catches_up (run : Runs (accepts (act serve)) (opened data) events w) :
    ∃ more w', Runs (accepts (act serve)) w more w' ∧ more.filterMap WorldEvent.delivery = [] ∧
      w'.client = w.client ∧ w'.executed = (asked events).take w.client.sent := by
  obtain ⟨queries, underway⟩ := (served_of_run run).underway
  have sent : act serve w (.send w.outgoing.length) =
      .ok { w with outgoing := [], held := w.held ++ w.outgoing } := by
    simp [act]
  obtain ⟨w', rest, client, executed⟩ := executes_all serve queries
    { w with outgoing := [], held := w.held ++ w.outgoing } underway.bytes
  refine ⟨.send w.outgoing.length :: List.replicate queries.length .execute, w', .next sent rest,
    ?_, client, ?_⟩
  · simp [WorldEvent.delivery]
  · rw [executed, underway.accounted, underway.sent, ← List.length_append, List.take_left]

theorem asked_of_hidden (hidden : more.filterMap WorldEvent.delivery = []) : asked more = [] := by
  simp [asked, clientEvents, hidden, begun]

theorem not_drop_of_hidden (hidden : more.filterMap WorldEvent.delivery = []) :
    .client .drop ∉ more := by
  intro mem
  have none := List.filterMap_eq_nil_iff.mp hidden _ mem
  cases none

theorem act_of_wakes {wakes : ℕ} (serve : σ → Text → Reply × σ) (w : World σ)
    (run : Runs (accepts (step replies)) s (List.replicate wakes .wake) v)
    (reading : ∀ r, s.running = some r → r.await ≠ .flush) :
    Runs (accepts (act serve)) { w with client := s } (List.replicate wakes (.client .wake))
      { w with client := v } := by
  refine runs_of_wakes (fun s => { w with client := s }) (fun s r s' running waits resumed => ?_)
    run reading
  rw [resume_any waits replies silent] at resumed
  simp [act, running, waits, resumed, Except.map]

theorem completes_served (run : Runs (accepts (act serve)) (opened data) events w)
    (answers : Answers serve data (asked events) replies) (noDrop : .client .drop ∉ events)
    (running : w.client.running = some r) (reading : r.await ≠ .flush) :
    ∃ more w', Runs (accepts (act serve)) w more w' ∧ .client .drop ∉ more ∧ asked more = [] ∧
      w'.client.running = none ∧ w'.client.completed =
        w.client.completed ++ [⟨r.number, r.start, messageResult (replies r.number).payload⟩] := by
  obtain ⟨serving, w₁, served, hidden, client, executed⟩ := catches_up run
  have same : asked (events ++ serving) = asked events := by
    rw [asked_append, asked_of_hidden hidden, List.append_nil]
  have stillNoDrop : .client .drop ∉ events ++ serving := by
    simp [noDrop, not_drop_of_hidden hidden]
  have undropped : Undropped replies w₁ :=
    undropped_of_run (Runs.append_iff.mpr ⟨w, run, served⟩) (same ▸ answers) stillNoDrop
  -- nothing that was flushed is unanswered any more
  have whole : (w₁.net replies).whole = withMore w₁.client w₁.inFlight := by
    obtain ⟨queries, underway⟩ := (served_of_run run).underway
    have all : w₁.executed.length = w₁.client.sent := by
      rw [executed, client, List.length_take, underway.accounted, underway.sent]
      simp
    simp [World.net, Net.whole, all, repliesFrom, wires]
  have still : w₁.client.running = some r := client ▸ running
  obtain ⟨wakes, s', wake, ended, completed⟩ :=
    completes_own undropped.positioned undropped.paired still reading
  have arrived : act serve w₁ (.arrive w₁.inFlight.length) =
      .ok { w₁ with client := (w₁.net replies).whole, inFlight := [] } := by
    simp [act, whole]
  have waits : ∀ r', (w₁.net replies).whole.running = some r' → r'.await ≠ .flush := by
    intro r' found
    rw [Option.some.inj (found.symm.trans still)]
    exact reading
  have finish := act_of_wakes serve { w₁ with inFlight := [] } wake waits
  refine ⟨serving ++ .arrive w₁.inFlight.length :: List.replicate wakes (.client .wake), _,
    Runs.append_iff.mpr ⟨w₁, served, .next arrived finish⟩, ?_, ?_, ended, ?_⟩
  · simp [not_drop_of_hidden hidden]
  · rw [asked_append, asked_of_hidden hidden]
    simp [asked, clientEvents, WorldEvent.delivery, NetEvent.visible, begun, begunBy]
  · exact client ▸ completed

theorem completes_flushed (run : Runs (accepts (act serve)) (opened data) events w)
    (answers : Answers serve data (asked events) replies) (noDrop : .client .drop ∉ events)
    (running : w.client.running = some r) (flushing : r.await = .flush) :
    ∃ more w', Runs (accepts (act serve)) w more w' ∧ .client .drop ∉ more ∧ asked more = [] ∧
      w'.client.running = none ∧ w'.client.completed =
        w.client.completed ++ [⟨r.number, r.start, messageResult (replies r.number).payload⟩] := by
  let w₁ : World σ := { w with
    client := handedOver w.client r
    outgoing := w.outgoing ++ (w.client.buffer.map request).flatten }
  have flushed : act serve w (.client .wake) = .ok w₁ := by
    simp [act, running, flushing, w₁]
  have quiet : asked (events ++ [.client .wake]) = asked events := asked_quiet rfl
  obtain ⟨more, w', rest, noDrop', silent, ended, completed⟩ := completes_served
    (Runs.append_iff.mpr ⟨w, run, .next flushed (.refl w₁)⟩) (quiet ▸ answers) (by simp [noDrop])
    (r := { r with await := .header [] }) rfl Await.noConfusion
  exact ⟨.client .wake :: more, w', .next flushed rest, by simp [noDrop'], silent, ended, completed⟩

/-- From every state the server can catch up with the client. As long as nothing was dropped,
a running query can complete, with the answer to its own statement; behind a drop it may wait
for ever. -/
theorem always_served (run : Runs (accepts (act serve)) (opened data) events w) :
    (∃ more w', Runs (accepts (act serve)) w more w' ∧ more.filterMap WorldEvent.delivery = [] ∧
      w'.client = w.client ∧ w'.executed = (asked events).take w.client.sent) ∧
    (.client .drop ∉ events → ∀ r, w.client.running = some r → ∃ more w' reply,
      Runs (accepts (act serve)) w more w' ∧ .client .drop ∉ more ∧ asked more = [] ∧
        (outputs serve (asked events) data).1[r.number]? = some reply ∧
        w'.client.running = none ∧ w'.client.completed =
          w.client.completed ++ [⟨r.number, r.start, messageResult reply.payload⟩]) := by
  refine ⟨catches_up run, fun noDrop r running => ?_⟩
  obtain ⟨replies, answers⟩ := answers_exist serve data (asked events)
  obtain ⟨queries, underway⟩ := (served_of_run run).underway
  have numbered : r.number + 1 = w.client.sent + w.client.buffer.length :=
    ((undropped_of_run run answers noDrop).positioned.running r running).numbered
  have asks : r.number < (outputs serve (asked events) data).1.length := by
    rw [outputs_length, underway.accounted, List.length_append, List.length_append, ← underway.sent]
    omega
  have own := List.getElem?_eq_getElem asks
  have reply := answers _ _ own
  rw [← reply] at own
  by_cases flushing : r.await = .flush
  · obtain ⟨more, w', rest, noDrop', silent, ended, completed⟩ :=
      completes_flushed run answers noDrop running flushing
    exact ⟨more, w', _, rest, noDrop', silent, own, ended, completed⟩
  · obtain ⟨more, w', rest, noDrop', silent, ended, completed⟩ :=
      completes_served run answers noDrop running flushing
    exact ⟨more, w', _, rest, noDrop', silent, own, ended, completed⟩

def secondWaiting : List WorldEvent := twoServed.take 11

theorem always_served_waiting : ∃ w : World ℕ, w.executed = [['A']] ∧
    (∃ more w', Runs (accepts (act countingServer)) w more w' ∧
      more.filterMap WorldEvent.delivery = [] ∧ w'.client = w.client ∧
        w'.executed = [['A'], ['B']]) ∧
    ∃ more w', Runs (accepts (act countingServer)) w more w' ∧ .client .drop ∉ more ∧
      asked more = [] ∧ w'.client.running = none ∧
        w'.client.completed = w.client.completed ++ [⟨1, 9, .ok (.update 2 none)⟩] := by
  have folded : (secondWaiting.foldlM (act countingServer) (opened 0)).map
      (fun w => (w.executed, w.client.sent, w.client.running)) =
        .ok ([['A']], 2, some ⟨1, 9, .header []⟩) := by decide +kernel
  have statements : asked secondWaiting = [['A'], ['B']] := by decide
  have second : messageResult (updateReplies 1).payload = .ok (.update 2 none) := by decide +kernel
  obtain ⟨w, reached, same⟩ := map_eq_ok.mp folded
  obtain ⟨executed, rest⟩ := Prod.mk.inj same
  obtain ⟨sent, running⟩ := Prod.mk.inj rest
  obtain ⟨catchUp, answer⟩ := always_served (foldlM_ok_iff.mp reached)
  rw [statements, sent] at catchUp
  obtain ⟨more, w', reply, run, noDrop, quiet, own, ended, completed⟩ :=
    answer (by decide) _ running
  rw [statements] at own
  cases own
  exact ⟨w, executed, catchUp, more, w', run, noDrop, quiet, ended,
    completed.trans (congrArg (fun result => w.client.completed ++ [⟨1, 9, result⟩]) second)⟩

end Progress

end SqlxMonetdb.ServedQueries
