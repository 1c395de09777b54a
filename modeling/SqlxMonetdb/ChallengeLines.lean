import SqlxMonetdb.Handshake

set_option autoImplicit false

namespace SqlxMonetdb.ChallengeLines
open ListSplitting TextPrimitives DriverError Handshake

section Access

/-- The fields of a line, without the empty ones at its end. -/
def fields (line : Text) : List Text := (line.rdropWhile (· == ':')).splitOn ':'

def fieldsFrom (fields : List Text) (start : ℕ) : Option (List Text) :=
  if start ≤ fields.length then some (fields.drop start) else none

/-- `parseChallenge` by the index expressions of the source; `none` when one of them panics. -/
def parseChallengeIndexed (line : Text) : Option (Except MonetError Challenge) := do
  let line := line.rdropWhile (· == ':')
  let fields := line.splitOn ':'
  if fields.length < 6 then
    return .error (.handshake [.text "challenge line has ", .number fields.length,
      .text " fields, expected at least 6: ", .debug line])
  let protocolVersion ← fields[2]?
  if protocolVersion ≠ "9".toList then
    return .error (.handshake [.text "unsupported MAPI protocol version ",
      .debug protocolVersion, .text "; only \"9\" is supported"])
  let endian ← fields[4]?
  match parseEndian endian with
  | .error e => return .error e
  | .ok serverEndian =>
    let extras ← fieldsFrom fields 6
    let salt ← fields[0]?
    let serverType ← fields[1]?
    let hashes ← fields[3]?
    let serverHash ← fields[5]?
    return .ok { salt, serverType, protocolVersion, hashes := hashes.splitOn ',', serverEndian
                 serverHash, handshakeOptionLevel := optionLevel extras }

theorem six_fields {fields : List Text} (h : 6 ≤ fields.length) :
    ∃ a b c d e f extras, fields = a :: b :: c :: d :: e :: f :: extras := by
  match fields, h with
  | a :: b :: c :: d :: e :: f :: extras, _ => exact ⟨a, b, c, d, e, f, extras, rfl⟩

theorem parseChallenge_short {line : Text} (short : (fields line).length < 6) :
    parseChallenge line = .error (.handshake [.text "challenge line has ",
      .number (fields line).length, .text " fields, expected at least 6: ",
      .debug (line.rdropWhile (· == ':'))]) := by
  unfold parseChallenge
  dsimp only
  split
  · rename_i whole
    rw [fields, whole] at short
    simp only [List.length_cons] at short
    omega
  · rfl

theorem parseChallenge_six {line a b c d e f : Text} {extras : List Text}
    (whole : fields line = a :: b :: c :: d :: e :: f :: extras) :
    parseChallenge line =
      if c ≠ "9".toList then
        .error (.handshake [.text "unsupported MAPI protocol version ", .debug c,
          .text "; only \"9\" is supported"])
      else (parseEndian e).map fun endian =>
        ⟨a, b, c, d.splitOn ',', endian, f, optionLevel extras⟩ := by
  rw [fields] at whole
  unfold parseChallenge
  dsimp only
  rw [whole]

theorem parseChallengeIndexed_eq (line : Text) :
    parseChallengeIndexed line = some (parseChallenge line) := by
  unfold parseChallengeIndexed
  by_cases short : (fields line).length < 6
  · rw [parseChallenge_short short]
    exact if_pos short
  · obtain ⟨a, b, c, d, e, f, extras, whole⟩ := six_fields (not_lt.mp short)
    rw [parseChallenge_six whole]
    rw [fields] at short whole
    dsimp only
    rw [if_neg short, whole]
    simp only [List.getElem?_cons_succ, List.getElem?_cons_zero, Option.bind_eq_bind,
      Option.bind_some]
    by_cases version : c ≠ "9".toList
    · rw [if_pos version, if_pos version]
      rfl
    · rw [if_neg version, if_neg version]
      cases parseEndian e with
      | error e => rfl
      | ok serverEndian => simp [fieldsFrom, Except.map, pure]

def byteOrder : Endian → Text
  | .big => "BIG".toList
  | .little => "LIT".toList

theorem parseEndian_byteOrder (endian : Endian) : parseEndian (byteOrder endian) = .ok endian := by
  cases endian <;> decide

theorem parseEndian_isOk_iff {field : Text} :
    (∃ endian, parseEndian field = .ok endian) ↔ field = "BIG".toList ∨ field = "LIT".toList := by
  unfold parseEndian
  split_ifs with big little
  · exact iff_of_true ⟨_, rfl⟩ (.inl big)
  · exact iff_of_true ⟨_, rfl⟩ (.inr little)
  · exact iff_of_false (fun ⟨endian, accepted⟩ => by cases accepted) (not_or.mpr ⟨big, little⟩)

/-- What a line needs to be accepted. -/
structure Acceptable (line : Text) : Prop where
  six : 6 ≤ (fields line).length
  version : (fields line)[2]? = some "9".toList
  order : (fields line)[4]? = some "BIG".toList ∨ (fields line)[4]? = some "LIT".toList

theorem exists_parseChallenge_iff (line : Text) :
    (∃ challenge, parseChallenge line = .ok challenge) ↔ Acceptable line := by
  by_cases short : (fields line).length < 6
  · rw [parseChallenge_short short]
    exact iff_of_false (fun ⟨challenge, accepted⟩ => by cases accepted)
      fun acceptable => absurd acceptable.six (not_le.mpr short)
  · obtain ⟨a, b, c, d, e, f, extras, whole⟩ := six_fields (not_lt.mp short)
    have third : (fields line)[2]? = some c := by rw [whole]; rfl
    have fifth : (fields line)[4]? = some e := by rw [whole]; rfl
    rw [parseChallenge_six whole]
    split_ifs with version
    · refine iff_of_false (fun ⟨challenge, accepted⟩ => by cases accepted) fun acceptable => ?_
      exact version (Option.some.inj (third.symm.trans acceptable.version))
    · simp only [map_eq_ok]
      constructor
      · rintro ⟨challenge, endian, read, -⟩
        refine ⟨not_lt.mp short, third.trans (congrArg some (not_not.mp version)), ?_⟩
        rw [fifth, Option.some_inj, Option.some_inj]
        exact parseEndian_isOk_iff.mp ⟨endian, read⟩
      · intro acceptable
        have order := acceptable.order
        rw [fifth, Option.some_inj, Option.some_inj] at order
        obtain ⟨endian, read⟩ := parseEndian_isOk_iff.mpr order
        exact ⟨_, endian, read, rfl⟩

end Access

section Rendering

/-- What a server puts in a challenge line: the values, and further fields on both sides of
the option level. -/
structure ChallengeParts where
  salt : Text
  serverType : Text
  hashes : List Text
  serverEndian : Endian
  serverHash : Text
  optionLevel : Option UInt8
  before : List Text
  after : List Text
  salt_plain : ':' ∉ salt
  serverType_plain : ':' ∉ serverType
  hashes_nonempty : hashes ≠ []
  hashes_plain : ∀ h ∈ hashes, ':' ∉ h ∧ ',' ∉ h
  serverHash_nonempty : serverHash ≠ []
  serverHash_plain : ':' ∉ serverHash
  further_plain : ∀ f ∈ before ++ after, ':' ∉ f ∧ ¬ "sql=".toList <+: f

variable (parts : ChallengeParts)

def ChallengeParts.extras : List Text :=
  parts.before ++
    (parts.optionLevel.elim [] fun n => ["sql=".toList ++ decimal n.toNat]) ++ parts.after

def ChallengeParts.fields : List Text :=
  parts.salt :: parts.serverType :: "9".toList :: [','].intercalate parts.hashes ::
    byteOrder parts.serverEndian :: parts.serverHash :: parts.extras

def ChallengeParts.line : Text := [':'].intercalate parts.fields

def ChallengeParts.challenge : Challenge :=
  ⟨parts.salt, parts.serverType, "9".toList, parts.hashes, parts.serverEndian, parts.serverHash,
    parts.optionLevel⟩

theorem optionLevel_append (extras : List Text) {more : List Text}
    (h : ∀ f ∈ more, ¬ "sql=".toList <+: f) : optionLevel (extras ++ more) = optionLevel extras := by
  induction more using List.reverseRecOn with
  | nil => rw [List.append_nil]
  | append_singleton more f ih =>
    have other : "sql=".toList.isPrefixOf? f = none := by
      cases found : "sql=".toList.isPrefixOf? f with
      | none => rfl
      | some value => exact absurd ⟨value, (isPrefixOf?_eq_some_iff.mp found).symm⟩ (h f (by simp))
    rw [← ih fun f mem => h f (by simp [mem]), ← List.append_assoc]
    unfold optionLevel
    rw [List.foldl_concat, other]

theorem optionLevel_concat (extras : List Text) (value : Text) :
    optionLevel (extras ++ ["sql=".toList ++ value]) = parseU8 value := by
  unfold optionLevel
  rw [List.foldl_concat, isPrefixOf?_append]

theorem optionLevel_extras : optionLevel parts.extras = parts.optionLevel := by
  have before : ∀ f ∈ parts.before, ¬ "sql=".toList <+: f := fun f mem =>
    (parts.further_plain f (by simp [mem])).2
  have after : ∀ f ∈ parts.after, ¬ "sql=".toList <+: f := fun f mem =>
    (parts.further_plain f (by simp [mem])).2
  rw [ChallengeParts.extras, optionLevel_append _ after]
  cases parts.optionLevel with
  | none =>
    rw [Option.elim_none, List.append_nil]
    exact optionLevel_append [] before
  | some level =>
    rw [Option.elim_some, optionLevel_concat, parseU8_decimal]

theorem optionLevel_trimmed (extras : List Text) :
    optionLevel (extras.rdropWhile List.isEmpty) = optionLevel extras := by
  have empties : ∀ f ∈ extras.rtakeWhile List.isEmpty, ¬ "sql=".toList <+: f := by
    intro f mem
    rw [List.isEmpty_iff.mp (List.mem_rtakeWhile_imp mem)]
    decide
  have whole := optionLevel_append (extras.rdropWhile List.isEmpty) empties
  rw [List.rdropWhile_append_rtakeWhile] at whole
  exact whole.symm

theorem colon_not_mem_extras : ∀ f ∈ parts.extras, ':' ∉ f := by
  intro f mem
  have further (mem : f ∈ parts.before ++ parts.after) : ':' ∉ f := (parts.further_plain f mem).1
  rw [ChallengeParts.extras, List.mem_append, List.mem_append] at mem
  rcases mem with (mem | level) | mem
  · exact further (by simp [mem])
  · cases given : parts.optionLevel with
    | none => simp [given] at level
    | some n =>
      obtain rfl : f = "sql=".toList ++ decimal n.toNat := by simpa [given] using level
      exact List.not_mem_append (by decide) (not_mem_decimal (by decide) _)
  · exact further (by simp [mem])

theorem colon_not_mem_fields : ∀ f ∈ parts.fields, ':' ∉ f := by
  have hashes : ':' ∉ [','].intercalate parts.hashes :=
    not_mem_intercalate (by decide) fun h mem => (parts.hashes_plain h mem).1
  have endian : ':' ∉ byteOrder parts.serverEndian := by
    cases parts.serverEndian <;> decide
  intro f mem
  rw [ChallengeParts.fields] at mem
  simp only [List.mem_cons] at mem
  rcases mem with rfl | rfl | rfl | rfl | rfl | rfl | mem
  · exact parts.salt_plain
  · exact parts.serverType_plain
  · decide
  · exact hashes
  · exact endian
  · exact parts.serverHash_plain
  · exact colon_not_mem_extras parts f mem

theorem fields_line (trailing : ℕ) :
    fields (parts.line ++ List.replicate trailing ':') =
      parts.salt :: parts.serverType :: "9".toList :: [','].intercalate parts.hashes ::
        byteOrder parts.serverEndian :: parts.serverHash ::
          parts.extras.rdropWhile List.isEmpty := by
  -- of the fields only empty ones at the end are lost, and the sixth is not empty
  have filled : ∃ f ∈ parts.fields, f ≠ [] :=
    ⟨parts.serverHash, by simp [ChallengeParts.fields], parts.serverHash_nonempty⟩
  have cut := splitOn_rdropWhile_intercalate (colon_not_mem_fields parts) filled trailing
  have six : ∀ f ∈ [parts.salt, parts.serverType, "9".toList, [','].intercalate parts.hashes,
      byteOrder parts.serverEndian, parts.serverHash].getLast?, f.isEmpty = false := by
    intro f last
    obtain rfl : parts.serverHash = f := by simpa using last
    exact List.isEmpty_eq_false_iff.mpr parts.serverHash_nonempty
  rw [fields, ChallengeParts.line, cut]
  exact rdropWhile_append_of_last six parts.extras

theorem parseChallenge_line (trailing : ℕ) :
    parseChallenge (parts.line ++ List.replicate trailing ':') = .ok parts.challenge := by
  have hashes : ([','].intercalate parts.hashes).splitOn ',' = parts.hashes :=
    List.splitOn_intercalate ',' (fun h mem => (parts.hashes_plain h mem).2) parts.hashes_nonempty
  rw [parseChallenge_six (fields_line parts trailing), if_neg (not_not.mpr rfl),
    parseEndian_byteOrder, hashes, optionLevel_trimmed, optionLevel_extras]
  rfl

/-- Challenge lines are read back exactly, and no other kind of line is accepted or makes a
field access panic. -/
theorem parseChallenge_exact :
    (∀ (parts : ChallengeParts) (trailing : ℕ),
      parseChallenge (parts.line ++ List.replicate trailing ':') = .ok parts.challenge) ∧
    ∀ line, parseChallengeIndexed line = some (parseChallenge line) ∧
      ((∃ challenge, parseChallenge line = .ok challenge) ↔ Acceptable line) :=
  ⟨parseChallenge_line, fun line =>
    ⟨parseChallengeIndexed_eq line, exists_parseChallenge_iff line⟩⟩

def typicalParts : ChallengeParts where
  salt := "salt".toList
  serverType := "mserver".toList
  hashes := ["RIPEMD160".toList, "SHA1".toList]
  serverEndian := .big
  serverHash := "SHA1".toList
  optionLevel := some 6
  before := []
  after := ["BINARY=1".toList]
  salt_plain := by decide
  serverType_plain := by decide
  hashes_nonempty := by decide
  hashes_plain := by decide
  serverHash_nonempty := by decide
  serverHash_plain := by decide
  further_plain := by decide

theorem typical_line_read :
    parseChallenge "salt:mserver:9:RIPEMD160,SHA1:BIG:SHA1:sql=6:BINARY=1:".toList =
      .ok typicalParts.challenge := by
  have line : typicalParts.line ++ List.replicate 1 ':' =
      "salt:mserver:9:RIPEMD160,SHA1:BIG:SHA1:sql=6:BINARY=1:".toList := by decide
  rw [← line]
  exact parseChallenge_exact.1 typicalParts 1

end Rendering

end SqlxMonetdb.ChallengeLines
