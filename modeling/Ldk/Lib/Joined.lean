import Mathlib

/-!
# Texts with a sign between them

Texts are put behind each other with a sign between two of them; an empty one leaves nothing.

- `glue`: two texts. It is associative and the empty text is its unit.
- `joined`: all texts of a list, which are those of Mathlib's `List.intercalate` that are not empty.
- `joined_flatten`: a part may be joined before the rest.
- `joined_countP_le`: parts that are no smaller give a text that is no smaller.
-/

namespace Joined

variable {α ι : Type} {sign : α}

/-- Two texts, with the sign between them when neither is empty. -/
def glue (sign : α) (s t : List α) : List α :=
  if t = [] then s else if s = [] then t else s ++ sign :: t

/-- All texts of a list. -/
def joined (sign : α) : List (List α) → List α
  | [] => []
  | s :: rest => glue sign s (joined sign rest)

/-! ## Two texts -/

variable {s t : List α}

theorem glue_nil (s : List α) : glue sign s [] = s := if_pos rfl

theorem nil_glue (t : List α) : glue sign [] t = t := by
  unfold glue
  split
  · exact ‹t = []›.symm
  · exact if_pos rfl

theorem glue_of_ne_nil (hs : s ≠ []) (ht : t ≠ []) : glue sign s t = s ++ sign :: t := by
  unfold glue
  rw [if_neg ht, if_neg hs]

theorem glue_eq_nil_iff : glue sign s t = [] ↔ s = [] ∧ t = [] := by
  by_cases hs : s = []
  · rw [hs, nil_glue]
    exact (and_iff_right rfl).symm
  · by_cases ht : t = []
    · rw [ht, glue_nil]
      exact (and_iff_left rfl).symm
    · rw [glue_of_ne_nil hs ht]
      exact iff_of_false (List.append_ne_nil_of_left_ne_nil hs _) fun h => hs h.1

theorem glue_assoc (s t u : List α) :
    glue sign (glue sign s t) u = glue sign s (glue sign t u) := by
  by_cases hs : s = []
  · rw [hs, nil_glue, nil_glue]
  · by_cases ht : t = []
    · rw [ht, nil_glue, glue_nil]
    · by_cases hu : u = []
      · rw [hu, glue_nil, glue_nil]
      · rw [glue_of_ne_nil (fun h => hs (glue_eq_nil_iff.1 h).1) hu, glue_of_ne_nil hs ht,
          glue_of_ne_nil hs (fun h => ht (glue_eq_nil_iff.1 h).1), glue_of_ne_nil ht hu,
          List.append_assoc, List.cons_append]

theorem length_le_glue (s t : List α) : s.length ≤ (glue sign s t).length := by
  by_cases hs : s = []
  · rw [hs]
    exact Nat.zero_le _
  · by_cases ht : t = []
    · exact Nat.le_of_eq (by rw [ht, glue_nil])
    · rw [glue_of_ne_nil hs ht, List.length_append]
      exact Nat.le_add_right _ _

theorem length_glue (hs : s ≠ []) (ht : t ≠ []) :
    (glue sign s t).length = s.length + t.length + 1 := by
  rw [glue_of_ne_nil hs ht, List.length_append, List.length_cons, Nat.add_assoc]

theorem countP_glue_le (p : α → Bool) (s t : List α) :
    (glue sign s t).countP p ≤ s.countP p + t.countP p + 1 := by
  by_cases hs : s = []
  · rw [hs, nil_glue, List.countP_nil]
    omega
  · by_cases ht : t = []
    · rw [ht, glue_nil, List.countP_nil]
      omega
    · rw [glue_of_ne_nil hs ht, List.countP_append, List.countP_cons]
      split
      · omega
      · omega

/-! ## A list of texts -/

theorem joined_append (ss ts : List (List α)) :
    joined sign (ss ++ ts) = glue sign (joined sign ss) (joined sign ts) := by
  induction ss with
  | nil => exact (nil_glue _).symm
  | cons s ss ih =>
    show glue sign s (joined sign (ss ++ ts)) = _
    rw [ih, ← glue_assoc]
    rfl

theorem mem_glue {a : α} (h : a ∈ glue sign s t) : a = sign ∨ a ∈ s ∨ a ∈ t := by
  by_cases hs : s = []
  · rw [hs, nil_glue] at h
    exact .inr (.inr h)
  · by_cases ht : t = []
    · rw [ht, glue_nil] at h
      exact .inr (.inl h)
    · rw [glue_of_ne_nil hs ht, List.mem_append, List.mem_cons] at h
      rcases h with hleft | rfl | hright
      · exact .inr (.inl hleft)
      · exact .inl rfl
      · exact .inr (.inr hright)

/-- What is joined has the signs of the parts and the one between them. -/
theorem mem_joined {a : α} {parts : List (List α)} (h : a ∈ joined sign parts) :
    a = sign ∨ ∃ s ∈ parts, a ∈ s := by
  induction parts with
  | nil => cases h
  | cons s parts ih =>
    rcases mem_glue h with hsign | hs | hrest
    · exact .inl hsign
    · exact .inr ⟨s, List.mem_cons_self, hs⟩
    · exact (ih hrest).imp_right fun ⟨t, ht, ha⟩ => ⟨t, List.mem_cons_of_mem s ht, ha⟩

theorem joined_singleton (s : List α) : joined sign [s] = s := glue_nil s

/-- Parts that have been joined before. -/
theorem joined_flatten (parts : List (List (List α))) :
    joined sign (parts.map (joined sign)) = joined sign parts.flatten := by
  induction parts with
  | nil => rfl
  | cons part parts ih =>
    rw [List.flatten_cons, joined_append, ← ih]
    rfl

theorem joined_eq_nil_iff (parts : List (List α)) :
    joined sign parts = [] ↔ parts.filter (fun s => !s.isEmpty) = [] := by
  induction parts with
  | nil => exact iff_of_true rfl rfl
  | cons s parts ih =>
    show glue sign s (joined sign parts) = [] ↔ _
    rw [glue_eq_nil_iff, ih]
    cases s with
    | nil =>
      rw [List.filter_cons_of_neg (by exact Bool.false_ne_true)]
      exact and_iff_right rfl
    | cons a s =>
      rw [List.filter_cons_of_pos (by rfl)]
      exact iff_of_false (fun h => List.cons_ne_nil _ _ h.1) (List.cons_ne_nil _ _)

/-- What is joined is what Mathlib puts signs between. -/
theorem joined_eq_intercalate (parts : List (List α)) :
    joined sign parts = [sign].intercalate (parts.filter fun s => !s.isEmpty) := by
  induction parts with
  | nil => rfl
  | cons s parts ih =>
    show glue sign s (joined sign parts) = _
    have hempty : joined sign parts = [] ↔ parts.filter (fun s => !s.isEmpty) = [] :=
      joined_eq_nil_iff parts
    cases s with
    | nil => rw [nil_glue, List.filter_cons_of_neg (by exact Bool.false_ne_true), ih]
    | cons a s =>
      rw [List.filter_cons_of_pos (by rfl)]
      by_cases hrest : joined sign parts = []
      · rw [hrest, hempty.1 hrest, glue_nil, List.intercalate_singleton]
      · rw [glue_of_ne_nil (List.cons_ne_nil _ _) hrest,
          List.intercalate_cons_of_ne_nil fun h => hrest (hempty.2 h), ih, List.append_assoc]
        rfl

/-- Parts of no more signs than others give no more signs, and fewer if one of them has fewer. -/
theorem joined_countP_le {p : α → Bool} {f g : ι → List α} {parts : List ι}
    (h : ∀ i ∈ parts, (f i).countP p ≤ (g i).length ∧ (g i = [] → f i = [])) :
    (joined sign (parts.map g) = [] → joined sign (parts.map f) = []) ∧
      (joined sign (parts.map f)).countP p ≤ (joined sign (parts.map g)).length ∧
      ((joined sign (parts.map g)).length ≤ (joined sign (parts.map f)).countP p →
        ∀ i ∈ parts, (f i).countP p = (g i).length) := by
  induction parts with
  | nil => exact ⟨fun h => h, Nat.zero_le _, fun _ => nofun⟩
  | cons i parts ih =>
    obtain ⟨hnil, hle, heq⟩ := ih fun j hj => h j (List.mem_cons_of_mem i hj)
    obtain ⟨hcount, hempty⟩ := h i List.mem_cons_self
    rw [List.map_cons, List.map_cons]
    change (glue sign (g i) (joined sign (parts.map g)) = [] →
      glue sign (f i) (joined sign (parts.map f)) = []) ∧
      (glue sign (f i) (joined sign (parts.map f))).countP p ≤
        (glue sign (g i) (joined sign (parts.map g))).length ∧
      ((glue sign (g i) (joined sign (parts.map g))).length ≤
        (glue sign (f i) (joined sign (parts.map f))).countP p → _)
    rw [glue_eq_nil_iff, glue_eq_nil_iff]
    refine ⟨fun hboth => ⟨hempty hboth.1, hnil hboth.2⟩, ?_⟩
    by_cases hi : g i = []
    · rw [hi, hempty hi, nil_glue, nil_glue]
      refine ⟨hle, fun hge => ?_⟩
      rintro j hj
      rcases List.mem_cons.1 hj with rfl | hmem
      · rw [hi, hempty hi]
        rfl
      · exact heq hge j hmem
    · by_cases hrest : joined sign (parts.map g) = []
      · have hzero : (joined sign (parts.map g)).length ≤ (joined sign (parts.map f)).countP p := by
          rw [hrest]
          exact Nat.zero_le _
        rw [hrest, hnil hrest, glue_nil, glue_nil]
        refine ⟨hcount, fun hge => ?_⟩
        rintro j hj
        rcases List.mem_cons.1 hj with rfl | hmem
        · exact Nat.le_antisymm hcount hge
        · exact heq hzero j hmem
      · have hglue : (glue sign (f i) (joined sign (parts.map f))).countP p ≤
            (f i).countP p + (joined sign (parts.map f)).countP p + 1 := countP_glue_le p _ _
        rw [length_glue hi hrest]
        refine ⟨by omega, fun hge => ?_⟩
        rintro j hj
        rcases List.mem_cons.1 hj with rfl | hmem
        · omega
        · exact heq (by omega) j hmem

end Joined
