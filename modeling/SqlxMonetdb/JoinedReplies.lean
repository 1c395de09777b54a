import SqlxMonetdb.ReplySections

set_option autoImplicit false

namespace SqlxMonetdb.JoinedReplies
open TextPrimitives DriverError FramingBlocks Response ResponseLines LabelledRuns Row Arguments
open Connection ReplySections

section Slots

/-- The slots behind lines that have filled `own`, from slots that held `base`. -/
def stacked (base own : Slots) : Slots := ⟨own.table.or base.table, own.result.or base.result⟩

inductive Finished : QueryResponse → Prop where
  | update (affected : UInt64) (lastInsertId : Option Int64) : Finished (.update affected lastInsertId)
  | schema : Finished .schema
  | transaction (autoCommit : Bool) : Finished (.transaction autoCommit)

/-- A response, and the response to the statements behind it: an open table wins, whichever
of the two has it, and of two results the later one. -/
def andThen : QueryResponse → QueryResponse → QueryResponse
  | _, .table t => .table t
  | .table t, _ => .table t
  | earlier, .ok => earlier
  | _, later => later

def combined (responses : List QueryResponse) : QueryResponse := responses.foldl andThen .ok

variable {base own own' slots slots' : Slots} {line : Text} {lines : List Text}

theorem finished_of_readLine {r : QueryResponse} (h : readLine line = .ok (.finishes r)) :
    Finished r := by
  unfold readLine at h
  split at h <;> simp only [map_eq_ok, mapError_eq_ok, Except.ok.injEq, reduceCtorEq, and_false,
    exists_false, LineEffect.finishes.injEq] at h
  · obtain ⟨_, read, rfl⟩ := h
    obtain ⟨affected, lastInsertId, rfl⟩ := parseUpdateLine_ok read
    exact .update affected lastInsertId
  · subst h
    exact .schema
  · obtain ⟨_, read, rfl⟩ := h
    obtain ⟨autoCommit, rfl⟩ := parseTransactionLine_ok read
    exact .transaction autoCommit

def Proper (slots : Slots) : Prop := ∀ r, slots.result = some r → Finished r

theorem proper_keep (proper : Proper slots) (h : parseLine slots line = .ok slots') :
    Proper slots' := by
  obtain ⟨t, -, rfl⟩ | ⟨r, read, rfl⟩ | ⟨_, _, t, _, -, -, -, rfl⟩ | ⟨_, t, -, -, rfl⟩ | ⟨-, rfl⟩ :=
    parseLine_cases h
  · exact proper
  · rintro _ ⟨⟩
    exact finished_of_readLine read
  · exact proper
  · exact proper
  · exact proper

theorem proper_of_run (proper : Proper slots) (run : Runs (accepts parseLine) slots lines slots') :
    Proper slots' := run.invariant (I := Proper) (fun _ _ _ => proper_keep) proper

theorem openTable_stacked {what : String} {t : TableResult} (h : openTable own what line = .ok t)
    (base : Slots) : openTable (stacked base own) what line = .ok t := by
  have found := openTable_ok h
  simp [openTable, stacked, found]

theorem parseLine_stacked (base : Slots) (h : parseLine own line = .ok own') :
    parseLine (stacked base own) line = .ok (stacked base own') := by
  obtain ⟨effect, read, applied⟩ := readLine_of_parseLine h
  rw [parseLine_of_readLine read]
  cases effect with
  | skip =>
    cases applied
    rfl
  | opens t =>
    cases applied
    rfl
  | finishes r =>
    cases applied
    rfl
  | columns identity values =>
    obtain ⟨t, found, changed⟩ := bind_eq_ok.mp applied
    refine bind_eq_ok.mpr ⟨t, openTable_stacked found base, ?_⟩
    obtain ⟨t', fits, built⟩ := bind_eq_ok.mp changed
    cases built
    exact bind_eq_ok.mpr ⟨t', fits, rfl⟩
  | row fields =>
    obtain ⟨t, found, built⟩ := bind_eq_ok.mp applied
    cases built
    exact bind_eq_ok.mpr ⟨t, openTable_stacked found base, rfl⟩

theorem runs_stacked (base : Slots) (run : Runs (accepts parseLine) own lines own') :
    Runs (accepts parseLine) (stacked base own) lines (stacked base own') := by
  have sim := @Runs.refines _ _ _ _ (accepts parseLine) (accepts parseLine) (stacked base) some
    (fun _ _ _ h => parseLine_stacked base h) _ _ _ run
  rwa [List.filterMap_some] at sim

theorem response_stacked (before : Proper base) (behind : Proper own) :
    (stacked base own).response = andThen base.response own.response := by
  obtain ⟨baseTable, baseResult⟩ := base
  obtain ⟨ownTable, ownResult⟩ := own
  cases ownTable with
  | some t => rfl
  | none =>
    cases ownResult with
    | none =>
      cases baseTable with
      | some t => rfl
      | none =>
        cases baseResult with
        | none => rfl
        | some r => cases before r rfl <;> rfl
    | some r =>
      cases baseTable with
      | some t => cases behind r rfl <;> rfl
      | none =>
        cases baseResult with
        | none => cases behind r rfl <;> rfl
        | some r' => cases behind r rfl <;> cases before r' rfl <;> rfl

end Slots

section Texts

def joined (texts : List Text) : Text := ['\n'].intercalate texts

variable {texts : List Text} {responses : List QueryResponse} {base : Slots}

theorem lines_append (first rest : Text) :
    lines (first ++ '\n' :: rest) = lines first ++ lines rest :=
  List.splitOn_append_cons_self first rest

theorem runs_behind {text : Text} {response : QueryResponse}
    (parsed : parseResponse text = .ok response) (proper : Proper base) :
    ∃ slots, Runs (accepts parseLine) base (lines text) slots ∧ Proper slots ∧
      slots.response = andThen base.response response := by
  rw [parseResponse, bind_eq_ok] at parsed
  obtain ⟨own, folded, built⟩ := parsed
  cases built
  have run := foldlM_ok_iff.mp folded
  have behind : Proper own := proper_of_run (fun r none => by cases none) run
  refine ⟨stacked base own, runs_stacked base run, ?_, response_stacked proper behind⟩
  intro r found
  dsimp only [stacked] at found
  cases result : own.result with
  | none =>
    rw [result] at found
    exact proper r found
  | some r' =>
    rw [result] at found
    cases found
    exact behind r result

theorem runs_joined (parsed : List.Forall₂ (fun text r => parseResponse text = .ok r) texts responses)
    (nonempty : texts ≠ []) (proper : Proper base) :
    ∃ slots, Runs (accepts parseLine) base (lines (joined texts)) slots ∧
      slots.response = responses.foldl andThen base.response := by
  induction parsed generalizing base with
  | nil => exact absurd rfl nonempty
  | @cons text response texts responses first rest ih =>
    obtain ⟨slots, run, properly, holds⟩ := runs_behind first proper
    rw [List.foldl_cons, ← holds]
    cases texts with
    | nil =>
      cases rest
      exact ⟨slots, by simpa [joined] using run, rfl⟩
    | cons next texts =>
      obtain ⟨slots', run', holds'⟩ := ih (List.cons_ne_nil _ _) properly
      refine ⟨slots', ?_, holds'⟩
      rw [joined, List.intercalate_cons_cons, List.append_assoc, List.singleton_append, lines_append]
      exact Runs.append_iff.mpr ⟨slots, run, run'⟩

theorem parseResponse_joined
    (parsed : List.Forall₂ (fun text r => parseResponse text = .ok r) texts responses) :
    parseResponse (joined texts) = .ok (combined responses) := by
  by_cases nonempty : texts = []
  · subst nonempty
    cases parsed
    rfl
  · obtain ⟨slots, run, holds⟩ := @runs_joined _ _ ⟨none, none⟩ parsed nonempty
      fun r none => by cases none
    rw [parseResponse, bind_eq_ok]
    exact ⟨slots, foldlM_ok_iff.mpr run, congrArg Except.ok holds⟩

/-- One query takes the replies to all its statements off the stream, and yields what the
last table among them holds, or without a table the count of the last result. -/
theorem runQuery_joined {sql query : Text} {arguments : Except Message (Option MonetArguments)}
    (sent : sqlText sql arguments = .ok query)
    (parsed : List.Forall₂ (fun text r => parseResponse text = .ok r) texts responses)
    {wire : List UInt8} (framed : Framed wire (utf8Encode (joined texts)))
    (rest written : List UInt8) :
    runQuery ⟨⟨wire ++ rest, written⟩⟩ sql arguments =
      (responseItems (combined responses), ⟨⟨rest, written ++ request query⟩⟩) := by
  rw [runQuery_framed sent framed, messageResult_utf8Encode, parseResponse_joined parsed]
  rfl

theorem runQuery_joined_insert :
    let texts := ["&2 1 -1\n".toList, "&1 0 1 1 1\n% a # name\n[ 2\t]".toList, "&4 t".toList]
    let wire := Framing.encodeMessage (utf8Encode (joined texts)) []
    runQuery ⟨⟨wire ++ [], []⟩⟩ "INSERT; SELECT; COMMIT".toList (.ok none) =
      (responseItems (combined [.update 1 none,
        .table { queryId := 0, rowCount := 1, declaredColumns := 1, embeddedTuples := 1,
                 columns := [⟨['a'], [], none, none⟩], rows := [[some ['2']]] },
        .transaction true]), ⟨⟨[], [] ++ request "INSERT; SELECT; COMMIT".toList⟩⟩) :=
  runQuery_joined rfl (.cons (by decide +kernel) (.cons (by decide +kernel)
    (.cons (by decide +kernel) .nil))) (framed_encodeMessage _) [] []

end Texts

end SqlxMonetdb.JoinedReplies
