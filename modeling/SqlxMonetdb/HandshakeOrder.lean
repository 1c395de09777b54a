import SqlxMonetdb.HandshakeOutcomes

set_option autoImplicit false

namespace SqlxMonetdb.HandshakeOrder
open TextPrimitives DriverError Framing FramingBlocks Handshake RedirectTargets LabelledRuns
open PerformHandshake HandshakeMachine HandshakeOutcomes

section Causes

variable {crates : HashCrates} {username password database : Text} {first : Phase} {r s : State}
  {e : Event} {n : ℕ}

end Causes

section Order

variable (crates : HashCrates) (username password database : Text)

def challengeOn (c : ℕ) : Event → Option Text
  | .received d .challenge text => if d = c then some text else none
  | _ => none

def writtenOn (c : ℕ) : Event → Option (List UInt8)
  | .wrote d bytes => if d = c then some bytes else none
  | _ => none

def challenges (c : ℕ) (trace : List Event) : List Text := trace.filterMap (challengeOn c)

def written (c : ℕ) (trace : List Event) : List (List UInt8) := trace.filterMap (writtenOn c)

/-- The writes on a connection: the prime bytes once, then the `k`-th login message for the
`k`-th challenge, then the command or nothing. -/
def Carried (challenges : List Text) (written : List (List UInt8)) : Prop :=
  ∃ answered unanswered logins last, challenges = answered ++ unanswered ∧
    List.Forall₂ (LoginFor crates username password database) answered logins ∧
    written = primeBytes :: (logins ++ last) ∧ (last = [] ∨ last = [message replySizeCommand])

end Order

section Runs

variable {crates : HashCrates} {username password database : Text} {host : Text} {port : UInt16}
  {before after : List Event} {v : State}

end Runs

section Carrying

variable (crates : HashCrates) (username password database : Text)

/-- What the current connection has carried in each phase. -/
def CarriedIn (phase : Phase) (challenges : List Text) (written : List (List UInt8)) : Prop :=
  match phase with
  | .priming => challenges = [] ∧ written = []
  | .challenged line => ∃ answered logins, challenges = answered ++ [line] ∧
      List.Forall₂ (LoginFor crates username password database) answered logins ∧
      written = primeBytes :: logins
  | .limiting | .finished => ∃ logins,
      List.Forall₂ (LoginFor crates username password database) challenges logins ∧
      written = primeBytes :: (logins ++ [message replySizeCommand])
  | _ => ∃ logins, List.Forall₂ (LoginFor crates username password database) challenges logins ∧
      written = primeBytes :: logins

variable {crates username password database}

theorem CarriedIn.carried {phase : Phase} {challenges : List Text} {written : List (List UInt8)}
    (h : CarriedIn crates username password database phase challenges written)
    (primed : phase ≠ .priming) :
    Carried crates username password database challenges written := by
  have plain : (∃ logins, List.Forall₂ (LoginFor crates username password database) challenges
      logins ∧ written = primeBytes :: logins) →
      Carried crates username password database challenges written := by
    rintro ⟨logins, paired, rfl⟩
    exact ⟨challenges, [], logins, [], by simp, paired, by simp, .inl rfl⟩
  have limit : (∃ logins, List.Forall₂ (LoginFor crates username password database) challenges
      logins ∧ written = primeBytes :: (logins ++ [message replySizeCommand])) →
      Carried crates username password database challenges written := by
    rintro ⟨logins, paired, rfl⟩
    exact ⟨challenges, [], logins, _, by simp, paired, rfl, .inr rfl⟩
  cases phase with
  | priming => exact absurd rfl primed
  | challenged line =>
    obtain ⟨answered, logins, rfl, paired, rfl⟩ := h
    exact ⟨answered, [line], logins, [], rfl, paired, by simp, .inl rfl⟩
  | limiting => exact limit h
  | finished => exact limit h
  | opening => exact plain h
  | waiting => exact plain h
  | sent => exact plain h
  | accepted => exact plain h
  | refused => exact plain h

theorem carriedIn_afterReply (text : Text) {challenges : List Text} {written : List (List UInt8)}
    (h : CarriedIn crates username password database .sent challenges written) :
    CarriedIn crates username password database (afterReply text) challenges written := by
  obtain ⟨_, same⟩ | ⟨_, _, _, same⟩ | ⟨_, host, port, _, _, same⟩ | same := afterReply_cases text
  all_goals
    rw [same]
    exact h

theorem challenges_concat (c : ℕ) (past : List Event) (e : Event) :
    challenges c (past ++ [e]) = challenges c past ++ (challengeOn c e).toList := by
  rw [challenges, challenges, List.filterMap_append]
  cases h : challengeOn c e <;> simp [h]

theorem written_concat (c : ℕ) (past : List Event) (e : Event) :
    written c (past ++ [e]) = written c past ++ (writtenOn c e).toList := by
  rw [written, written, List.filterMap_append]
  cases h : writtenOn c e <;> simp [h]

variable (crates username password database)

structure Carries (trace : List Event) (s : State) : Prop where
  current : ∀ c, c + 1 = s.opened →
    CarriedIn crates username password database s.phase (challenges c trace) (written c trace)
  earlier : ∀ c, c + 1 < s.opened →
    Carried crates username password database (challenges c trace) (written c trace)
  later : ∀ c, s.opened ≤ c → challenges c trace = [] ∧ written c trace = []

variable {crates username password database}

theorem Carries.onCurrent {past : List Event} {n : ℕ} {phase phase' : Phase} {e : Event}
    (h : Carries crates username password database past ⟨n + 1, phase⟩)
    (other : ∀ c, c ≠ n → challengeOn c e = none ∧ writtenOn c e = none)
    (own : CarriedIn crates username password database phase (challenges n past) (written n past) →
      CarriedIn crates username password database phase'
        (challenges n past ++ (challengeOn n e).toList) (written n past ++ (writtenOn n e).toList)) :
    Carries crates username password database (past ++ [e]) ⟨n + 1, phase'⟩ := by
  have kept (c : ℕ) (different : c ≠ n) :
      challenges c (past ++ [e]) = challenges c past ∧ written c (past ++ [e]) = written c past := by
    obtain ⟨noChallenge, noWrite⟩ := other c different
    simp [challenges_concat, written_concat, noChallenge, noWrite]
  refine ⟨fun c same => ?_, fun c before => ?_, fun c behind => ?_⟩
  · obtain rfl : c = n := Nat.succ.inj same
    rw [challenges_concat, written_concat]
    exact own (h.current c rfl)
  · dsimp only at before
    obtain ⟨sameChallenges, sameWritten⟩ := kept c (by omega)
    rw [sameChallenges, sameWritten]
    exact h.earlier c before
  · dsimp only at behind
    obtain ⟨sameChallenges, sameWritten⟩ := kept c (by omega)
    rw [sameChallenges, sameWritten]
    exact h.later c behind

theorem carries_keep {past : List Event} {e : Event} {s u : State}
    (h : Carries crates username password database past s)
    (move : Moves crates username password database s e u) :
    Carries crates username password database (past ++ [e]) u := by
  cases move with
  | opened n host port =>
    have kept (c : ℕ) : challenges c (past ++ [.opened host port]) = challenges c past ∧
        written c (past ++ [.opened host port]) = written c past := by
      simp [challenges_concat, written_concat, challengeOn, writtenOn]
    refine ⟨fun c same => ?_, fun c before => ?_, fun c behind => ?_⟩
    · rw [(kept c).1, (kept c).2]
      exact h.later c (by dsimp only at same ⊢; omega)
    · rw [(kept c).1, (kept c).2]
      dsimp only at before
      -- the connection that was current is an earlier one now
      rcases Nat.lt_or_ge (c + 1) n with less | more
      · exact h.earlier c less
      · exact (h.current c (by dsimp only; omega)).carried Phase.noConfusion
    · rw [(kept c).1, (kept c).2]
      exact h.later c (by dsimp only at behind ⊢; omega)
  | primed n =>
    refine h.onCurrent (fun c different => ⟨rfl, if_neg different.symm⟩) ?_
    rintro ⟨noChallenge, noWrite⟩
    simp only [noChallenge, noWrite, challengeOn, writtenOn, if_pos]
    exact ⟨[], .nil, rfl⟩
  | challenged n line =>
    refine h.onCurrent (fun c different => ⟨if_neg different.symm, rfl⟩) ?_
    rintro ⟨logins, paired, wrote⟩
    simp only [challengeOn, writtenOn, if_pos]
    exact ⟨_, logins, rfl, paired, by simpa using wrote⟩
  | answered n login =>
    refine h.onCurrent (fun c different => ⟨rfl, if_neg different.symm⟩) ?_
    rintro ⟨answered, logins, pending, paired, wrote⟩
    simp only [challengeOn, writtenOn, if_pos, pending, wrote]
    refine ⟨logins ++ [_], ?_, rfl⟩
    simpa using List.rel_append paired (.cons login .nil)
  | replied n next =>
    refine h.onCurrent (fun c different => ⟨rfl, rfl⟩) fun carried => ?_
    simp only [challengeOn, writtenOn, Option.toList_none, List.append_nil]
    rw [← next]
    exact carriedIn_afterReply _ carried
  | limited n =>
    refine h.onCurrent (fun c different => ⟨rfl, if_neg different.symm⟩) ?_
    rintro ⟨logins, paired, wrote⟩
    simp only [challengeOn, writtenOn, if_pos, wrote]
    exact ⟨logins, by simpa using paired, rfl⟩
  | acknowledged n text =>
    refine h.onCurrent (fun c different => ⟨rfl, rfl⟩) fun carried => ?_
    simp only [challengeOn, writtenOn, Option.toList_none, List.append_nil]
    exact carried

theorem carries_of_run {host : Text} {port : UInt16} {trace : List Event} {v : State}
    (run : Runs (Moves crates username password database) ⟨0, .opening host port⟩ trace v) :
    Carries crates username password database trace v := by
  refine run.history (fun _ _ _ _ h move => carries_keep h move) [] ⟨?_, ?_, ?_⟩
  · intro c none
    cases none
  · intro c none
    cases none
  · exact fun c _ => ⟨rfl, rfl⟩

theorem carried_of_run {host : Text} {port : UInt16} {trace : List Event} {v : State}
    (run : Runs (Moves crates username password database) ⟨0, .opening host port⟩ trace v)
    (primed : Primed v) {c : ℕ} (within : c < connections trace) :
    Carried crates username password database (challenges c trace) (written c trace) := by
  have carries := carries_of_run run
  rw [connections_eq run] at within
  rcases Nat.lt_or_eq_of_le (Nat.succ_le_of_lt within) with before | current
  · exact carries.earlier c before
  · exact (carries.current c current).carried primed

end Carrying

end SqlxMonetdb.HandshakeOrder
