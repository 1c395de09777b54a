import Mathlib

set_option autoImplicit false

/-!
# Delimited lists

Stripping, trimming and splitting of lists, with the inverse laws a parser of
delimited text needs: a separator that no field contains cuts a joined list back
into its fields, also when padding surrounds the fields.
-/
namespace SqlxMonetdb.ListSplitting

variable {α : Type}

section Strip

variable [DecidableEq α]

theorem isPrefixOf?_eq_some_iff {l xs r : List α} :
    l.isPrefixOf? xs = some r ↔ xs = l ++ r := by
  induction l generalizing xs with
  | nil => cases xs <;> simp [List.isPrefixOf?, eq_comm]
  | cons a l ih =>
    cases xs with
    | nil => simp [List.isPrefixOf?]
    | cons x xs =>
      by_cases h : a = x
      · subst h
        simp [List.isPrefixOf?, ih]
      · simp [List.isPrefixOf?, h, Ne.symm h]

@[simp] theorem isPrefixOf?_append (l r : List α) : l.isPrefixOf? (l ++ r) = some r :=
  isPrefixOf?_eq_some_iff.mpr rfl

theorem isSuffixOf?_eq_some_iff {l xs r : List α} :
    l.isSuffixOf? xs = some r ↔ xs = r ++ l := by
  simp only [List.isSuffixOf?, Option.map_eq_some_iff, isPrefixOf?_eq_some_iff]
  constructor
  · rintro ⟨a, h, rfl⟩
    simpa using congrArg List.reverse h
  · rintro rfl
    exact ⟨r.reverse, by simp, by simp⟩

@[simp] theorem isSuffixOf?_append (r l : List α) : l.isSuffixOf? (r ++ l) = some r :=
  isSuffixOf?_eq_some_iff.mpr rfl

end Strip

section Trim

variable (p : α → Bool)

def trimBy (xs : List α) : List α := (xs.dropWhile p).rdropWhile p

structure Trimmed (xs : List α) : Prop where
  head : ∀ x ∈ xs.head?, p x = false
  last : ∀ x ∈ xs.getLast?, p x = false

variable {p}

instance (xs : List α) : Decidable (Trimmed p xs) :=
  decidable_of_iff (xs.head?.all (!p ·) = true ∧ xs.getLast?.all (!p ·) = true) (by
    simp only [Option.all_eq_true, Bool.not_eq_true']
    exact ⟨fun h => ⟨h.1, h.2⟩, fun h => ⟨h.head, h.last⟩⟩)

theorem trimBy_pad_left {ws xs : List α} (h : ∀ x ∈ ws, p x = true) :
    trimBy p (ws ++ xs) = trimBy p xs := by
  rw [trimBy, List.dropWhile_append_of_pos h]
  rfl

theorem rdropWhile_pad {xs ws : List α} (h : ∀ x ∈ ws, p x = true) :
    (xs ++ ws).rdropWhile p = xs.rdropWhile p := by
  rw [List.rdropWhile, List.reverse_append,
    List.dropWhile_append_of_pos (by simpa using h)]
  rfl

theorem rdropWhile_append_of_last {xs : List α} (h : ∀ x ∈ xs.getLast?, p x = false) (ys : List α) :
    (xs ++ ys).rdropWhile p = xs ++ ys.rdropWhile p := by
  induction ys using List.reverseRecOn with
  | nil =>
    rw [List.append_nil, List.rdropWhile_nil, List.append_nil, List.rdropWhile_eq_self_iff]
    intro nonempty
    simp [h _ (List.getLast?_eq_some_getLast nonempty)]
  | append_singleton ys y ih =>
    rw [← List.append_assoc]
    by_cases dropped : p y = true
    · rw [List.rdropWhile_concat_pos _ _ _ dropped, List.rdropWhile_concat_pos _ _ _ dropped, ih]
    · rw [List.rdropWhile_concat_neg _ _ _ dropped, List.rdropWhile_concat_neg _ _ _ dropped,
        List.append_assoc]

theorem trimBy_pad_right {xs ws : List α} (h : ∀ x ∈ ws, p x = true) :
    trimBy p (xs ++ ws) = trimBy p xs := by
  rw [trimBy, trimBy, List.dropWhile_append]
  split
  · rename_i hx
    have hws : ws.dropWhile p = [] := List.dropWhile_eq_nil_iff.mpr h
    rw [hws, List.isEmpty_iff.mp hx]
  · exact rdropWhile_pad h

theorem trimBy_of_trimmed {xs : List α} (h : Trimmed p xs) : trimBy p xs = xs := by
  have front : xs.dropWhile p = xs := by
    cases xs with
    | nil => rfl
    | cons x xs => simp [h.head x rfl]
  rw [trimBy, front, List.rdropWhile_eq_self_iff]
  intro nonempty
  simp [h.last _ (List.getLast?_eq_some_getLast nonempty)]

theorem trimmed_trimBy (xs : List α) : Trimmed p (trimBy p xs) where
  head x hx := by
    have front := List.head?_dropWhile_not p xs
    obtain ⟨rest, whole⟩ : trimBy p xs <+: xs.dropWhile p := List.rdropWhile_prefix p _
    have same : (xs.dropWhile p).head? = some x := by
      rw [← whole, List.head?_append_of_ne_nil _ (List.ne_nil_of_mem (List.mem_of_mem_head? hx))]
      exact hx
    rw [same] at front
    simpa using front
  last x hx := by
    have nonempty := List.ne_nil_of_mem (List.mem_of_mem_getLast? hx)
    have back := List.rdropWhile_last_not p (xs.dropWhile p) nonempty
    obtain rfl : (trimBy p xs).getLast nonempty = x := by
      rw [List.getLast?_eq_some_getLast nonempty] at hx
      exact Option.some.inj hx
    exact Bool.eq_false_iff.mpr back

theorem trimmed_of_forall {s : List α} (h : ∀ c ∈ s, p c = false) :
    Trimmed p s where
  head c hc := h c (List.mem_of_mem_head? hc)
  last c hc := h c (List.mem_of_mem_getLast? hc)

theorem trimmed_append {s t : List α} (hs : s ≠ []) (ht : t ≠ []) (trimS : Trimmed p s)
    (trimT : Trimmed p t) (mid : List α) : Trimmed p (s ++ (mid ++ t)) where
  head c hc := trimS.head c (by rwa [List.head?_append_of_ne_nil _ hs] at hc)
  last c hc := trimT.last c (by
    rwa [← List.append_assoc, List.getLast?_append_of_ne_nil _ ht] at hc)

theorem trimmed_intercalate (sep : List α) {texts : List (List α)} (some_text : texts ≠ [])
    (h : ∀ s ∈ texts, s ≠ [] ∧ Trimmed p s) :
    sep.intercalate texts ≠ [] ∧ Trimmed p (sep.intercalate texts) := by
  induction texts with
  | nil => exact absurd rfl some_text
  | cons s texts ih =>
    obtain ⟨hs, trimS⟩ := h s (by simp)
    cases texts with
    | nil => simpa using And.intro hs trimS
    | cons t texts =>
      obtain ⟨hrest, trimRest⟩ := ih (by simp) fun u hu => h u (by simp [hu])
      rw [List.intercalate_cons_cons, List.append_assoc]
      exact ⟨by simp [hs], trimmed_append hs hrest trimS trimRest sep⟩

theorem trimBy_decompose (xs : List α) :
    ∃ l r, xs = l ++ trimBy p xs ++ r ∧ (∀ x ∈ l, p x = true) ∧ ∀ x ∈ r, p x = true := by
  refine ⟨xs.takeWhile p, (xs.dropWhile p).rtakeWhile p, ?_, ?_, ?_⟩
  · rw [List.append_assoc, trimBy, List.rdropWhile_append_rtakeWhile,
      List.takeWhile_append_dropWhile]
  · exact fun x hx => List.mem_takeWhile_imp hx
  · exact fun x hx => List.mem_rtakeWhile_imp hx

theorem mem_of_mem_trimBy {x : α} {xs : List α} (h : x ∈ trimBy p xs) : x ∈ xs := by
  obtain ⟨l, r, whole, -, -⟩ := trimBy_decompose (p := p) xs
  rw [whole]
  simp [h]

end Trim

theorem not_mem_intercalate {c : α} {sep : List α} (hsep : c ∉ sep) {texts : List (List α)}
    (h : ∀ s ∈ texts, c ∉ s) : c ∉ sep.intercalate texts := by
  induction texts with
  | nil => simp
  | cons s texts ih =>
    have hs := h s (by simp)
    have rest := ih fun t ht => h t (by simp [ht])
    cases texts with
    | nil => simpa using hs
    | cons t texts =>
      rw [List.intercalate_cons_cons]
      simp only [List.mem_append, not_or]
      exact ⟨⟨hs, hsep⟩, rest⟩

theorem intercalate_concat (sep f : List α) {fields : List (List α)} (nonempty : fields ≠ []) :
    sep.intercalate (fields ++ [f]) = sep.intercalate fields ++ (sep ++ f) := by
  induction fields with
  | nil => exact absurd rfl nonempty
  | cons g fields ih =>
    cases fields with
    | nil => simp [List.intercalate_cons_cons]
    | cons h fields =>
      rw [List.cons_append, List.cons_append, List.intercalate_cons_cons, ← List.cons_append,
        ih (List.cons_ne_nil h fields), List.intercalate_cons_cons, List.append_assoc _ _ (sep ++ f)]

theorem filter_intercalate (p : α → Bool) {sep : List α} (dropped : sep.filter p = [])
    (fields : List (List α)) :
    (sep.intercalate fields).filter p = (fields.map (List.filter p)).flatten := by
  induction fields with
  | nil => rfl
  | cons f fields ih =>
    cases fields with
    | nil => simp
    | cons g fields =>
      rw [List.intercalate_cons_cons, List.filter_append, List.filter_append, dropped, ih,
        List.append_nil]
      rfl

section SplitOn

variable [DecidableEq α] {p : α → Bool} {a : α}

theorem splitOn_cons_of_ne {x : α} (h : x ≠ a) (xs : List α) :
    (x :: xs).splitOn a = (xs.splitOn a).modifyHead (x :: ·) := by
  simp [List.splitOn_cons_eq_if_modifyHead, h]

theorem splitOn_cons_self (xs : List α) : (a :: xs).splitOn a = [] :: xs.splitOn a := by
  simp [List.splitOn_cons_eq_if_modifyHead]

theorem not_mem_of_mem_splitOn {xs v : List α} (h : v ∈ xs.splitOn a) : a ∉ v := by
  induction xs generalizing v with
  | nil =>
    obtain rfl : v = [] := by simpa using h
    simp
  | cons x xs ih =>
    by_cases hx : x = a
    · subst hx
      rw [splitOn_cons_self, List.mem_cons] at h
      rcases h with rfl | h
      · simp
      · exact ih h
    · rw [splitOn_cons_of_ne hx] at h
      cases pieces : xs.splitOn a with
      | nil =>
        rw [pieces] at h
        cases h
      | cons f fs =>
        rw [pieces, List.modifyHead_cons, List.mem_cons] at h
        rcases h with rfl | h
        · have first := ih (v := f) (by rw [pieces]; simp)
          simp [first, Ne.symm hx]
        · exact ih (by rw [pieces]; simp [h])

theorem map_trimBy_splitOn_pad_left {ws : List α} (h : ∀ x ∈ ws, p x = true) (ha : p a = false)
    (xs : List α) :
    ((ws ++ xs).splitOn a).map (trimBy p) = (xs.splitOn a).map (trimBy p) := by
  induction ws with
  | nil => rfl
  | cons w ws ih =>
    have hw : p w = true := h w (by simp)
    have hne : w ≠ a := fun e => by simp [e, ha] at hw
    have rest := ih fun x hx => h x (by simp [hx])
    rw [List.cons_append, splitOn_cons_of_ne hne, ← rest]
    cases (ws ++ xs).splitOn a with
    | nil => rfl
    | cons f fs =>
      have hf : trimBy p (w :: f) = trimBy p f :=
        @trimBy_pad_left α p [w] f (by simpa using hw)
      simp [hf]

theorem splitOn_append_of_not_mem {ws : List α} (hw : a ∉ ws) (xs : List α) :
    ∃ fs f, xs.splitOn a = fs ++ [f] ∧ (xs ++ ws).splitOn a = fs ++ [f ++ ws] := by
  induction xs with
  | nil => exact ⟨[], [], by simp, by simpa using List.splitOn_eq_singleton hw⟩
  | cons x xs ih =>
    obtain ⟨fs, f, plain, padded⟩ := ih
    by_cases h : x = a
    · subst h
      refine ⟨[] :: fs, f, ?_, ?_⟩
      · rw [splitOn_cons_self, plain, List.cons_append]
      · rw [List.cons_append, splitOn_cons_self, padded, List.cons_append]
    · rw [List.cons_append, splitOn_cons_of_ne h, splitOn_cons_of_ne h, plain, padded]
      cases fs with
      | nil => exact ⟨[], x :: f, rfl, rfl⟩
      | cons g fs => exact ⟨(x :: g) :: fs, f, rfl, rfl⟩

theorem map_trimBy_splitOn_pad_right {ws : List α} (h : ∀ x ∈ ws, p x = true) (ha : p a = false)
    (xs : List α) :
    ((xs ++ ws).splitOn a).map (trimBy p) = (xs.splitOn a).map (trimBy p) := by
  have hw : a ∉ ws := fun mem => by simp [h a mem] at ha
  obtain ⟨fs, f, plain, padded⟩ := splitOn_append_of_not_mem hw xs
  simp [plain, padded, trimBy_pad_right h]

theorem map_trimBy_splitOn_trimBy (ha : p a = false) (xs : List α) :
    ((trimBy p xs).splitOn a).map (trimBy p) = (xs.splitOn a).map (trimBy p) := by
  obtain ⟨l, r, split, hl, hr⟩ := trimBy_decompose (p := p) xs
  conv_rhs => rw [split]
  rw [map_trimBy_splitOn_pad_right hr ha, map_trimBy_splitOn_pad_left hl ha]

/-- Trimmed fields joined by a separator with padding behind it are cut back. -/
theorem map_trimBy_splitOn_intercalate (pad : List α) (ha : p a = false)
    (hpad : ∀ x ∈ pad, p x = true) {fields : List (List α)} (nonempty : fields ≠ [])
    (hsep : ∀ f ∈ fields, a ∉ f) (htrim : ∀ f ∈ fields, Trimmed p f) :
    ((List.intercalate (a :: pad) fields).splitOn a).map (trimBy p) = fields := by
  induction fields with
  | nil => exact absurd rfl nonempty
  | cons f fields ih =>
    have hf : a ∉ f := hsep f (by simp)
    have tf : trimBy p f = f := trimBy_of_trimmed (htrim f (by simp))
    cases fields with
    | nil => simp [List.splitOn_eq_singleton hf, tf]
    | cons g fields =>
      have rest := ih (by simp) (fun x hx => hsep x (by simp [hx])) fun x hx => htrim x (by simp [hx])
      rw [List.intercalate_cons_cons, List.append_assoc, List.cons_append,
        List.splitOn_append_cons_self_of_not_mem hf, List.map_cons, tf,
        map_trimBy_splitOn_pad_left hpad ha, rest]

end SplitOn

section Intercalate

variable [DecidableEq α]

theorem count_intercalate (a : α) (fields : List (List α)) :
    ([a].intercalate fields).count a = (fields.map (List.count a)).sum + (fields.length - 1) := by
  induction fields with
  | nil => rfl
  | cons f fields ih =>
    cases fields with
    | nil => simp
    | cons g fields =>
      rw [List.intercalate_cons_cons, List.count_append, List.count_append, ih]
      simp only [List.count_singleton_self, List.map_cons, List.sum_cons, List.length_cons]
      omega

theorem sum_count_eq_zero_iff {a : α} {fields : List (List α)} :
    (fields.map (List.count a)).sum = 0 ↔ ∀ f ∈ fields, a ∉ f := by
  rw [List.sum_eq_zero_iff_forall_eq_nat]
  simp only [List.forall_mem_map, List.count_eq_zero]

/-- As many fields joined to the same list are the same fields, when those on one side do
not hold the separator. -/
theorem intercalate_injective {a : α} {fields fields' : List (List α)}
    (h : [a].intercalate fields = [a].intercalate fields') (same : fields.length = fields'.length)
    (free : ∀ f ∈ fields, a ∉ f) : fields = fields' := by
  have counted := congrArg (List.count a) h
  rw [count_intercalate, count_intercalate, same, Nat.add_right_cancel_iff] at counted
  have none := sum_count_eq_zero_iff.mpr free
  have free' := sum_count_eq_zero_iff.mp (counted.symm.trans none)
  cases fields with
  | nil => exact (List.eq_nil_of_length_eq_zero same.symm).symm
  | cons f fields =>
    have nonempty : fields' ≠ [] := by
      rintro rfl
      cases same
    rw [← List.splitOn_intercalate a free (List.cons_ne_nil f fields),
      ← List.splitOn_intercalate a free' nonempty, h]

/-- Separators behind the last field that holds something are trimmed with the empty
fields between them. -/
theorem splitOn_rdropWhile_intercalate {a : α} {fields : List (List α)}
    (free : ∀ f ∈ fields, a ∉ f) (filled : ∃ f ∈ fields, f ≠ []) (n : ℕ) :
    (([a].intercalate fields ++ List.replicate n a).rdropWhile (· == a)).splitOn a =
      fields.rdropWhile List.isEmpty := by
  induction fields using List.reverseRecOn generalizing n with
  | nil =>
    obtain ⟨f, mem, -⟩ := filled
    cases mem
  | append_singleton front f ih =>
    have padding : ∀ x ∈ List.replicate n a, (x == a) = true := fun x mem =>
      beq_iff_eq.mpr (List.eq_of_mem_replicate mem)
    by_cases empty : f = []
    · subst empty
      obtain ⟨g, mem, some_text⟩ : ∃ f ∈ front, f ≠ [] := by
        simpa only [List.mem_append, List.mem_singleton, or_and_right, exists_or,
          exists_eq_left, ne_eq, not_true_eq_false, or_false] using filled
      have shorter := ih (fun f mem => free f (by simp [mem])) ⟨g, mem, some_text⟩ (n + 1)
      rw [intercalate_concat _ _ (List.ne_nil_of_mem mem), List.append_nil, List.append_assoc,
        List.singleton_append, ← List.replicate_succ, shorter,
        List.rdropWhile_concat_pos _ _ _ rfl]
    · have last : ([a].intercalate (front ++ [f])).rdropWhile (· == a) =
          [a].intercalate (front ++ [f]) := by
        obtain ⟨before, ends⟩ : ∃ before, [a].intercalate (front ++ [f]) = before ++ f := by
          by_cases first : front = []
          · exact ⟨[], by simp [first]⟩
          · exact ⟨_, by rw [intercalate_concat _ _ first, ← List.append_assoc]⟩
        rw [ends, List.rdropWhile_eq_self_iff]
        intro nonempty separator
        rw [List.getLast_append_of_ne_nil nonempty empty, beq_iff_eq] at separator
        exact free f (by simp) (separator ▸ List.getLast_mem empty)
      rw [rdropWhile_pad padding, last, List.splitOn_intercalate a free (by simp),
        List.rdropWhile_concat_neg _ _ _ (by simpa using empty)]

end Intercalate

section SplitOnSeq

variable {s : List α} {z : α}

/-- The last element of the separator, absent from a field, rules out an earlier match. -/
theorem not_prefix_of_last_not_mem (hs : z ∉ s) {x : α} {f : List α} (hf : z ∉ x :: f)
    (rest : List α) : ¬ (s ++ [z]) <+: (x :: f) ++ (s ++ rest) := by
  rintro ⟨tail, h⟩
  have hz : ((x :: f) ++ (s ++ rest))[s.length]? = some z := by
    rw [← h, List.append_assoc, List.getElem?_append_right (le_refl _)]
    simp
  rw [← List.append_assoc, List.getElem?_append_left (by simp only [List.length_append, List.length_cons]; omega)] at hz
  have mem : z ∈ (x :: f) ++ s := List.mem_of_getElem? hz
  rcases List.mem_append.mp mem with hm | hm
  · exact hf hm
  · exact hs hm

variable [DecidableEq α]

/-- `splitOnSeq` with `skip` elements of the last separator still to pass over. -/
def splitOnSeqFrom (sep : List α) : ℕ → List α → List (List α)
  | _, [] => [[]]
  | skip + 1, _ :: xs => splitOnSeqFrom sep skip xs
  | 0, x :: xs =>
    if sep.isPrefixOf (x :: xs) then [] :: splitOnSeqFrom sep (sep.length - 1) xs
    else (splitOnSeqFrom sep 0 xs).modifyHead (x :: ·)

/-- Cut at each occurrence of `sep`, found from left to right without overlap. -/
def splitOnSeq (sep xs : List α) : List (List α) := splitOnSeqFrom sep 0 xs

theorem splitOnSeqFrom_skip (sep ys xs : List α) :
    splitOnSeqFrom sep ys.length (ys ++ xs) = splitOnSeqFrom sep 0 xs := by
  induction ys with
  | nil => rfl
  | cons y ys ih => simpa [splitOnSeqFrom] using ih

theorem splitOnSeq_field (hs : z ∉ s) {f : List α} (hf : z ∉ f) (rest : List α) :
    splitOnSeq (s ++ [z]) (f ++ ((s ++ [z]) ++ rest)) = f :: splitOnSeq (s ++ [z]) rest := by
  induction f with
  | nil =>
    cases s with
    | nil => simp [splitOnSeq, splitOnSeqFrom]
    | cons y s =>
      have skip := splitOnSeqFrom_skip (y :: s ++ [z]) (s ++ [z]) rest
      simpa [splitOnSeq, splitOnSeqFrom] using skip
  | cons x f ih =>
    have hrest := ih fun mem => hf (by simp [mem])
    have hno : (s ++ [z]).isPrefixOf (x :: (f ++ ((s ++ [z]) ++ rest))) = false := by
      have := not_prefix_of_last_not_mem hs hf (z :: rest)
      rw [Bool.eq_false_iff, ne_eq, List.isPrefixOf_iff_prefix]
      simpa using this
    rw [splitOnSeq] at hrest ⊢
    rw [List.cons_append, splitOnSeqFrom, hno, hrest]
    rfl

theorem splitOnSeq_singleton {f : List α} (hf : z ∉ f) : splitOnSeq (s ++ [z]) f = [f] := by
  induction f with
  | nil => rfl
  | cons x f ih =>
    have hrest := ih fun mem => hf (by simp [mem])
    have hno : (s ++ [z]).isPrefixOf (x :: f) = false := by
      rw [Bool.eq_false_iff, ne_eq, List.isPrefixOf_iff_prefix]
      exact fun pre => hf (pre.subset (by simp))
    rw [splitOnSeq] at hrest ⊢
    rw [splitOnSeqFrom, hno, hrest]
    rfl

theorem splitOnSeq_intercalate (hs : z ∉ s) {fields : List (List α)} (nonempty : fields ≠ [])
    (hf : ∀ f ∈ fields, z ∉ f) :
    splitOnSeq (s ++ [z]) (List.intercalate (s ++ [z]) fields) = fields := by
  induction fields with
  | nil => exact absurd rfl nonempty
  | cons f fields ih =>
    cases fields with
    | nil => simpa using splitOnSeq_singleton (hf f (by simp))
    | cons g fields =>
      rw [List.intercalate_cons_cons, List.append_assoc, splitOnSeq_field hs (hf f (by simp)),
        ih (by simp) fun x hx => hf x (by simp [hx])]

end SplitOnSeq

section RsplitOnce

variable [DecidableEq α]

def rsplitOnce (c : α) : List α → Option (List α × List α)
  | [] => none
  | x :: xs =>
    match rsplitOnce c xs with
    | some (before, after) => some (x :: before, after)
    | none => if x = c then some ([], xs) else none

theorem rsplitOnce_eq_none {c : α} {xs : List α} (h : c ∉ xs) : rsplitOnce c xs = none := by
  induction xs with
  | nil => rfl
  | cons x xs ih =>
    have hx : x ≠ c := fun e => h (by simp [e])
    simp [rsplitOnce, ih fun mem => h (by simp [mem]), hx]

theorem rsplitOnce_eq_none_iff {c : α} {xs : List α} : rsplitOnce c xs = none ↔ c ∉ xs := by
  refine ⟨fun h mem => ?_, rsplitOnce_eq_none⟩
  induction xs with
  | nil => cases mem
  | cons x xs ih =>
    rw [rsplitOnce] at h
    split at h
    · cases h
    · rename_i tail
      split_ifs at h with hx
      rcases List.mem_cons.mp mem with rfl | mem
      · exact hx rfl
      · exact ih tail mem

theorem rsplitOnce_append {c : α} (xs : List α) {ys : List α} (h : c ∉ ys) :
    rsplitOnce c (xs ++ c :: ys) = some (xs, ys) := by
  induction xs with
  | nil => simp [rsplitOnce, rsplitOnce_eq_none h]
  | cons x xs ih => simp [rsplitOnce, ih]

theorem rsplitOnce_eq_some_iff {c : α} {xs before after : List α} :
    rsplitOnce c xs = some (before, after) ↔ xs = before ++ c :: after ∧ c ∉ after := by
  constructor
  · intro h
    induction xs generalizing before with
    | nil => cases h
    | cons x xs ih =>
      rw [rsplitOnce] at h
      split at h
      · rename_i found
        cases h
        obtain ⟨rfl, absent⟩ := ih found
        exact ⟨rfl, absent⟩
      · rename_i tail
        split_ifs at h with hx
        cases h
        exact ⟨by rw [hx, List.nil_append], rsplitOnce_eq_none_iff.mp tail⟩
  · rintro ⟨rfl, absent⟩
    exact rsplitOnce_append before absent

end RsplitOnce

section Pieces

variable {α : Type}

/-- Where the front of joined pieces ends: behind some of them, or inside the next one. -/
theorem prefix_flatten {pieces : List (List α)} {front : List α} (h : front <+: pieces.flatten) :
    ∃ k part, k ≤ pieces.length ∧ front = (pieces.take k).flatten ++ part ∧
      (part = [] ∨ ∃ piece, pieces[k]? = some piece ∧ part <+: piece ∧ part ≠ piece) := by
  induction pieces generalizing front with
  | nil => exact ⟨0, [], le_refl 0, by simpa using h, .inl rfl⟩
  | cons piece pieces ih =>
    rw [List.flatten_cons] at h
    rcases List.prefix_or_prefix_of_prefix h (List.prefix_append piece _) with inside | beyond
    · by_cases whole : front = piece
      · exact ⟨1, [], by simp, by simp [whole], .inl rfl⟩
      · exact ⟨0, front, Nat.zero_le _, rfl, .inr ⟨piece, rfl, inside, whole⟩⟩
    · obtain ⟨further, rfl⟩ := beyond
      obtain ⟨k, part, within, rfl, ends⟩ := ih ((List.prefix_append_right_inj piece).mp h)
      exact ⟨k + 1, part, Nat.succ_le_succ within, by simp, by simpa using ends⟩

end Pieces

section Lengths

/-- The room a list of pieces takes: their elements, and one more for each piece. -/
def extent (pieces : List (List α)) : ℕ := (pieces.map fun piece => piece.length + 1).sum

@[simp] theorem extent_nil : extent ([] : List (List α)) = 0 := rfl

@[simp] theorem extent_cons (piece : List α) (pieces : List (List α)) :
    extent (piece :: pieces) = piece.length + 1 + extent pieces := rfl

theorem extent_eq (pieces : List (List α)) :
    extent pieces = (pieces.map List.length).sum + pieces.length := by
  induction pieces with
  | nil => rfl
  | cons piece pieces ih =>
    rw [extent_cons, ih, List.map_cons, List.sum_cons, List.length_cons]
    omega

theorem extent_modifyHead_le (x : α) (pieces : List (List α)) :
    extent (pieces.modifyHead (x :: ·)) ≤ extent pieces + 1 := by
  cases pieces with
  | nil => exact Nat.zero_le _
  | cons piece pieces =>
    rw [List.modifyHead_cons, extent_cons, extent_cons, List.length_cons]
    omega

theorem length_trimBy_le (p : α → Bool) (xs : List α) : (trimBy p xs).length ≤ xs.length :=
  (List.rdropWhile_prefix p _).length_le.trans (List.length_dropWhile_le p xs)

theorem extent_map_trimBy_le (p : α → Bool) (pieces : List (List α)) :
    extent (pieces.map (trimBy p)) ≤ extent pieces := by
  rw [extent, List.map_map]
  exact List.sum_le_sum fun piece _ => Nat.succ_le_succ (length_trimBy_le p piece)

variable [DecidableEq α]

/-- A cut at single elements leaves room for the elements it takes out. -/
theorem extent_splitOn_le (a : α) (xs : List α) : extent (xs.splitOn a) ≤ xs.length + 1 := by
  induction xs with
  | nil => simp
  | cons x xs ih =>
    by_cases h : x = a
    · subst h
      rw [splitOn_cons_self, extent_cons, List.length_nil, List.length_cons]
      omega
    · rw [splitOn_cons_of_ne h, List.length_cons]
      have one := extent_modifyHead_le x (xs.splitOn a)
      omega

theorem extent_splitOnSeqFrom_le (sep : List α) (skip : ℕ) (xs : List α) :
    extent (splitOnSeqFrom sep skip xs) ≤ xs.length + 1 := by
  induction xs generalizing skip with
  | nil => cases skip <;> simp [splitOnSeqFrom]
  | cons x xs ih =>
    cases skip with
    | succ skip => exact (ih skip).trans (by simp)
    | zero =>
      rw [splitOnSeqFrom]
      split
      · have rest := ih (sep.length - 1)
        rw [extent_cons, List.length_nil, List.length_cons]
        omega
      · have one := extent_modifyHead_le x (splitOnSeqFrom sep 0 xs)
        have rest := ih 0
        rw [List.length_cons]
        omega

end Lengths

end SqlxMonetdb.ListSplitting
