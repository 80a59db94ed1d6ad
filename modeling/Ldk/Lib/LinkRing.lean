import Mathlib

/-!
# Circular doubly linked lists

Nodes with a forward and a backward link that close a ring through a head, as programs keep
them inside of the records they list. The operations write single links; `Represents` says
which list the ring stands for, and each operation has its effect on that list:

- `Represents.insertTail`: the entry comes last.
- `Represents.removeEntry`: the entry is gone and the order of the others stays.
- `Represents.removeHead`, `Represents.removeTail`: an entry is taken out at an end; an empty
  ring gives its own head.
-/

universe u

/-- The links of all nodes; those of a node in no ring are whatever was left in them. -/
structure LinkRing (α : Type u) where
  flink : α → α
  blink : α → α

namespace LinkRing

variable {α : Type u} [DecidableEq α]

/-! ## Writing links -/

def setFlink (r : LinkRing α) (a b : α) : LinkRing α := { r with flink := Function.update r.flink a b }

def setBlink (r : LinkRing α) (a b : α) : LinkRing α := { r with blink := Function.update r.blink a b }

/-- Both links between two neighbours. -/
def link (r : LinkRing α) (a b : α) : LinkRing α := (r.setFlink a b).setBlink b a

/-- An empty ring. -/
def initHead (r : LinkRing α) (head : α) : LinkRing α := (r.setFlink head head).setBlink head head

def insertTail (r : LinkRing α) (head entry : α) : LinkRing α :=
  let last := r.blink head
  (((r.setFlink entry head).setBlink entry last).setFlink last entry).setBlink head entry

def removeEntry (r : LinkRing α) (entry : α) : LinkRing α :=
  let next := r.flink entry
  let previous := r.blink entry
  (r.setFlink previous next).setBlink next previous

/-- The entry taken out, which is the head of an empty ring, and the ring without it. -/
def removeHead (r : LinkRing α) (head : α) : α × LinkRing α :=
  let entry := r.flink head
  let next := r.flink entry
  (entry, (r.setFlink head next).setBlink next head)

def removeTail (r : LinkRing α) (head : α) : α × LinkRing α :=
  let entry := r.blink head
  let previous := r.blink entry
  (entry, (r.setBlink head previous).setFlink previous head)

/-! ## What a ring stands for -/

/-- The links between two neighbours are set. -/
def Linked (r : LinkRing α) (a b : α) : Prop := r.flink a = b ∧ r.blink b = a

/-- The ring through `head` lists `xs`, and no node comes twice. -/
structure Represents (r : LinkRing α) (head : α) (xs : List α) : Prop where
  nodup : (head :: xs).Nodup
  linked : (head :: xs ++ [head]).IsChain r.Linked

variable {r : LinkRing α} {head a b : α} {xs ys : List α}

omit [DecidableEq α] in
/-- A chain is kept by a ring with the same forward links but of the last node and the same
backward links but of the first. -/
theorem isChain_congr {r' : LinkRing α} (h : xs.IsChain r.Linked)
    (hflink : ∀ c ∈ xs.dropLast, r'.flink c = r.flink c)
    (hblink : ∀ c ∈ xs.tail, r'.blink c = r.blink c) : xs.IsChain r'.Linked := by
  rw [List.isChain_iff_getElem] at h ⊢
  intro i hi
  obtain ⟨hforward, hbackward⟩ := h i hi
  have hlast : xs[i] ∈ xs.dropLast := by
    rw [← List.getElem_dropLast (by rw [List.length_dropLast]; omega)]
    apply List.getElem_mem
  have hfirst : xs[i + 1] ∈ xs.tail := by
    rw [← List.getElem_tail (by rw [List.length_tail]; omega)]
    apply List.getElem_mem
  exact ⟨(hflink _ hlast).trans hforward, (hblink _ hfirst).trans hbackward⟩

theorem link_flink_self : (r.link a b).flink a = b := Function.update_self _ _ _

theorem link_blink_self : (r.link a b).blink b = a := Function.update_self _ _ _

theorem link_flink_of_ne {c : α} (h : c ≠ a) : (r.link a b).flink c = r.flink c :=
  Function.update_of_ne h _ _

theorem link_blink_of_ne {c : α} (h : c ≠ b) : (r.link a b).blink c = r.blink c :=
  Function.update_of_ne h _ _

/-- Two chains are joined by the links between their ends, when these are the ends of no other
link. -/
theorem isChain_link (hleft : (xs ++ [a]).IsChain r.Linked) (hright : (b :: ys).IsChain r.Linked)
    (ha : ∀ c ∈ xs ++ (b :: ys).dropLast, c ≠ a) (hb : ∀ c ∈ (xs ++ [a]).tail ++ ys, c ≠ b) :
    (xs ++ [a] ++ b :: ys).IsChain (r.link a b).Linked := by
  have hleft' : (xs ++ [a]).IsChain (r.link a b).Linked := by
    apply isChain_congr hleft
    · intro c hc
      rw [List.dropLast_concat] at hc
      exact link_flink_of_ne (ha c (List.mem_append_left _ hc))
    · intro c hc
      exact link_blink_of_ne (hb c (List.mem_append_left _ hc))
  have hright' : (b :: ys).IsChain (r.link a b).Linked := by
    apply isChain_congr hright
    · intro c hc
      exact link_flink_of_ne (ha c (List.mem_append_right _ hc))
    · intro c hc
      exact link_blink_of_ne (hb c (List.mem_append_right _ hc))
  apply List.IsChain.append hleft' hright'
  intro x hx z hz
  obtain rfl : a = x := by simpa using hx
  obtain rfl : b = z := by simpa using hz
  exact ⟨link_flink_self, link_blink_self⟩

/-! ## Reading the ring -/

omit [DecidableEq α] in
/-- The node after one of the ring, which is the head when it is the last. -/
theorem Represents.flink_eq {x : α} (h : r.Represents head (xs ++ x :: ys)) :
    r.flink x = (ys ++ [head]).head (List.append_ne_nil_of_right_ne_nil _ (List.cons_ne_nil _ _)) := by
  have hlinked := h.linked
  rw [← List.cons_append, List.append_assoc] at hlinked
  have htail := hlinked.right_of_append
  cases ys with
  | nil => exact (List.isChain_cons_cons.mp htail).1.1
  | cons y ys => exact (List.isChain_cons_cons.mp htail).1.1

omit [DecidableEq α] in
theorem Represents.flink_head (h : r.Represents head xs) :
    r.flink head = (xs ++ [head]).head (List.append_ne_nil_of_right_ne_nil _ (List.cons_ne_nil _ _)) := by
  have hlinked := h.linked
  cases xs with
  | nil => exact (List.isChain_cons_cons.mp hlinked).1.1
  | cons x xs => exact (List.isChain_cons_cons.mp hlinked).1.1

/-! ## The operations -/

theorem represents_initHead (r : LinkRing α) (head : α) : (r.initHead head).Represents head [] where
  nodup := List.nodup_singleton head
  linked := List.isChain_pair.mpr ⟨Function.update_self _ _ _, Function.update_self _ _ _⟩

theorem insertTail_eq {entry : α} (h : entry ≠ r.blink head) :
    r.insertTail head entry = (r.link (r.blink head) entry).link entry head := by
  simp only [insertTail, link, setFlink, setBlink, Function.update_comm h]

omit [DecidableEq α] in
/-- The head and the list end in a node, and it is the one before the head. -/
theorem Represents.exists_last (h : r.Represents head xs) :
    ∃ ps, head :: xs = ps ++ [r.blink head] := by
  obtain ⟨ps, a, hps⟩ := (List.eq_nil_or_concat (head :: xs)).resolve_left (List.cons_ne_nil _ _)
  rw [List.concat_eq_append] at hps
  have hlinked := h.linked
  rw [hps, List.append_assoc] at hlinked
  obtain ⟨-, hback⟩ := (List.isChain_cons_cons.mp hlinked.right_of_append).1
  exact ⟨ps, hback ▸ hps⟩

theorem Represents.insertTail {entry : α} (h : r.Represents head xs) (hnew : entry ∉ head :: xs) :
    (r.insertTail head entry).Represents head (xs ++ [entry]) := by
  obtain ⟨ps, hps⟩ := h.exists_last
  have hnodup : (ps ++ [r.blink head]).Nodup := hps ▸ h.nodup
  have hlast : r.blink head ∉ ps := fun hmem => (List.nodup_append.mp hnodup).2.2 _ hmem _
    (List.mem_singleton_self _) rfl
  have htail : (ps ++ [r.blink head]).tail = xs := by rw [← hps, List.tail_cons]
  have hne : entry ≠ r.blink head := by
    rintro rfl
    exact hnew (hps ▸ List.mem_append_right _ (List.mem_singleton_self _))
  rw [insertTail_eq hne]
  constructor
  · -- the entry is in the ring for the first time
    rw [← List.cons_append, List.nodup_append]
    refine ⟨h.nodup, List.nodup_singleton _, ?_⟩
    intro c hc d hd
    rw [List.mem_singleton.mp hd]
    exact ne_of_mem_of_not_mem hc hnew
  · have hold : (ps ++ [r.blink head]).IsChain r.Linked := hps ▸ h.linked.left_of_append
    have hentry := isChain_link (b := entry) hold (List.IsChain.singleton entry)
      (fun c hc => ne_of_mem_of_not_mem (by simpa using hc) hlast)
      (fun c hc => by
        rw [htail, List.append_nil] at hc
        exact ne_of_mem_of_not_mem (List.mem_cons_of_mem _ hc) hnew)
    have hclosed := isChain_link (b := head) hentry (List.IsChain.singleton head)
      (fun c hc => by
        rw [← hps] at hc
        exact ne_of_mem_of_not_mem (by simpa using hc) hnew)
      (fun c hc => by
        rw [← hps, List.cons_append, List.tail_cons, List.append_nil] at hc
        rcases List.mem_append.mp hc with hold | hentry
        · exact ne_of_mem_of_not_mem hold (List.nodup_cons.mp h.nodup).1
        · rw [List.mem_singleton.mp hentry]
          exact (ne_of_mem_of_not_mem List.mem_cons_self hnew).symm)
    rw [← hps] at hclosed
    simpa using hclosed

theorem Represents.removeEntry {x : α} (h : r.Represents head (xs ++ x :: ys)) :
    (r.removeEntry x).Represents head (xs ++ ys) := by
  obtain ⟨ps, a, hps⟩ := (List.eq_nil_or_concat (head :: xs)).resolve_left (List.cons_ne_nil _ _)
  obtain ⟨b, qs, hqs⟩ : ∃ b qs, ys ++ [head] = b :: qs :=
    List.exists_cons_of_ne_nil (List.append_ne_nil_of_right_ne_nil _ (List.cons_ne_nil _ _))
  rw [List.concat_eq_append] at hps
  have hring : head :: (xs ++ x :: ys) ++ [head] = ps ++ [a] ++ x :: b :: qs := by
    rw [← hqs, ← hps]
    simp
  -- the neighbours of the entry
  have hlinked := h.linked
  rw [hring, List.isChain_split, List.append_assoc, List.isChain_cons_cons] at hlinked
  obtain ⟨hleft, ⟨hnext, hback⟩, hright⟩ := hlinked
  obtain ⟨hfore, hprevious⟩ := (List.isChain_cons_cons.mp hleft.right_of_append).1
  have hold : (ps ++ [a]).IsChain r.Linked := by
    rw [← List.append_assoc] at hleft
    exact hleft.left_of_append
  have hremove : r.removeEntry x = r.link a b := by
    rw [← hprevious, ← hnext]
    rfl
  have ha : a ∉ ps ++ ys := by
    have hnodup : (ps ++ [a] ++ x :: ys).Nodup := hps ▸ h.nodup
    grind
  have hb : b ∉ xs ++ qs := by
    have hnodup : (xs ++ x :: (ys ++ [head])).Nodup := by
      have hrotated := h.nodup
      grind
    rw [hqs] at hnodup
    grind
  rw [hremove]
  constructor
  · exact h.nodup.sublist (((List.sublist_cons_self x ys).append_left xs).cons_cons head)
  · have hjoined := isChain_link hold hright
      (fun c hc => ne_of_mem_of_not_mem (by rwa [← hqs, List.dropLast_concat] at hc) ha)
      (fun c hc => ne_of_mem_of_not_mem (by rwa [← hps, List.tail_cons] at hc) hb)
    rw [← hps, ← hqs] at hjoined
    simpa using hjoined

/-- What is taken from the front of a ring. -/
theorem Represents.removeHead {x : α} (h : r.Represents head (x :: xs)) :
    (r.removeHead head).1 = x ∧ (r.removeHead head).2.Represents head xs := by
  obtain ⟨hfore, hback⟩ := (List.isChain_cons_cons.mp h.linked).1
  have hremove : (r.removeHead head).2 = r.removeEntry x := by
    unfold LinkRing.removeHead LinkRing.removeEntry
    rw [hfore, hback]
  rw [hremove]
  have hrest : (r.removeEntry x).Represents head ([] ++ xs) := Represents.removeEntry h
  exact ⟨hfore, hrest⟩

/-- What is taken from the back of a ring. -/
theorem Represents.removeTail {x : α} (h : r.Represents head (xs ++ [x])) :
    (r.removeTail head).1 = x ∧ (r.removeTail head).2.Represents head xs := by
  have hlinked := h.linked
  rw [List.cons_append, List.append_assoc, ← List.cons_append] at hlinked
  obtain ⟨hfore, hback⟩ := (List.isChain_cons_cons.mp hlinked.right_of_append).1
  have hremove : (r.removeTail head).2 = r.removeEntry x := by
    unfold LinkRing.removeTail LinkRing.removeEntry
    rw [hfore, hback]
    rfl
  have hrest : (r.removeEntry x).Represents head (xs ++ []) := Represents.removeEntry h
  rw [List.append_nil] at hrest
  rw [hremove]
  exact ⟨hback, hrest⟩

/-- An empty ring gives its head and stays empty. -/
theorem Represents.removeHead_nil (h : r.Represents head []) :
    (r.removeHead head).1 = head ∧ (r.removeHead head).2.Represents head [] := by
  obtain ⟨hfore, hback⟩ := List.isChain_pair.mp h.linked
  refine ⟨hfore, List.nodup_singleton head, List.isChain_pair.mpr ?_⟩
  unfold LinkRing.removeHead
  simp only [hfore]
  exact ⟨link_flink_self, link_blink_self⟩

theorem Represents.removeTail_nil (h : r.Represents head []) :
    (r.removeTail head).1 = head ∧ (r.removeTail head).2.Represents head [] := by
  obtain ⟨hfore, hback⟩ := List.isChain_pair.mp h.linked
  refine ⟨hback, List.nodup_singleton head, List.isChain_pair.mpr ?_⟩
  unfold LinkRing.removeTail
  simp only [hback]
  exact ⟨link_flink_self, link_blink_self⟩

end LinkRing
