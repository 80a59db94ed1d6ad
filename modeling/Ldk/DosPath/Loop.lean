import Ldk.DosPath.FullPath
import Ldk.Lib.Yields

/-!
# The loop of a full path

What the loop of `RtlGetFullPathName_Ustr` over the name does to its output. It needs two things:
room for the characters that are left (`Inside.room`), and a backslash that `..` does not go back
beyond (`Anchored`), if there is a `..` at all. Then it writes inside its buffer, it makes no characters up, and it puts no
backslash behind another (`walk_spec`); what comes behind it only shortens the text
(`finish_spec`).
-/

namespace Ldk.DosPath

/-! ## Reading and writing -/

variable {o : Output} {ch : WCHAR} {s buffer : List WCHAR} {B lo i source : Nat}

theorem charAt_set_self {k : Nat} (hk : k < buffer.length) : charAt (buffer.set k ch) k = ch := by
  unfold charAt
  rw [List.getElem?_set_self hk]
  rfl

theorem charAt_set_ne {k m : Nat} (h : k ≠ m) : charAt (buffer.set k ch) m = charAt buffer m := by
  unfold charAt
  rw [List.getElem?_set_ne h]

theorem charAt_of_lt {k : Nat} (hk : k < buffer.length) : buffer[k]? = some (charAt buffer k) := by
  unfold charAt
  rw [List.getElem?_eq_getElem hk]
  rfl

namespace Output

theorem store_eq (h : o.dest < o.buffer.length) :
    o.store ch = .ok { o with buffer := o.buffer.set o.dest ch } := if_pos h

theorem push_eq (h : o.dest < o.buffer.length) :
    o.push ch = .ok ⟨o.buffer.set o.dest ch, o.dest + 1⟩ := by
  unfold push
  rw [store_eq h]
  rfl

theorem previous_eq (hpos : 0 < o.dest) (h : o.dest ≤ o.buffer.length) :
    o.previous = .ok (charAt o.buffer (o.dest - 1)) := by
  unfold previous
  rw [if_neg (by omega), charAt_of_lt (by omega)]

theorem back_eq (hpos : 0 < o.dest) : o.back = .ok { o with dest := o.dest - 1 } :=
  if_neg (Nat.ne_of_gt hpos)

end Output

/-- The text before the cursor is a part of what it was. -/
structure Shortened (o o' : Output) : Prop where
  length : o'.buffer.length = o.buffer.length
  dest : o'.dest ≤ o.dest
  text : ∀ k < o'.dest, charAt o'.buffer k = charAt o.buffer k

theorem Shortened.refl (o : Output) : Shortened o o := ⟨rfl, Nat.le_refl _, fun _ _ => rfl⟩

theorem Shortened.trans {o₁ o₂ o₃ : Output} (h : Shortened o₁ o₂) (h' : Shortened o₂ o₃) :
    Shortened o₁ o₃ where
  length := h'.length.trans h.length
  dest := Nat.le_trans h'.dest h.dest
  text k hk := (h'.text k hk).trans (h.text k (Nat.lt_of_lt_of_le hk h'.dest))

/-! ## Going back -/

/-- There is a backslash at the root or behind it. -/
def Anchored (B : Nat) (o : Output) : Prop :=
  ∃ q, B ≤ q + 1 ∧ q < o.dest ∧ charAt o.buffer q = backslash

/-- The loop comes to rest at the anchor or behind it. -/
theorem eraseToSeparator_spec {dest q : Nat} (hlt : dest < buffer.length) (hq : q ≤ dest)
    (hanchor : charAt buffer q = backslash) :
    Yields (eraseToSeparator buffer dest) fun o' => o'.buffer.length = buffer.length ∧
      q ≤ o'.dest ∧ o'.dest ≤ dest ∧ charAt o'.buffer o'.dest = backslash ∧
        ∀ k ≤ o'.dest, charAt o'.buffer k = charAt buffer k := by
  induction dest generalizing buffer with
  | zero =>
    obtain rfl := Nat.le_zero.mp hq
    unfold eraseToSeparator
    rw [charAt_of_lt hlt]
    dsimp only
    rw [if_pos hanchor]
    exact .ok ⟨rfl, Nat.le_refl 0, Nat.le_refl 0, hanchor, fun _ _ => rfl⟩
  | succ dest ih =>
    unfold eraseToSeparator
    rw [charAt_of_lt hlt]
    dsimp only
    split
    · rename_i hstop
      exact .ok ⟨rfl, hq, Nat.le_refl _, hstop, fun _ _ => rfl⟩
    · rename_i hgo
      have hne : q ≠ dest + 1 := by
        rintro rfl
        exact hgo hanchor
      have hset : charAt (buffer.set (dest + 1) 0) q = backslash := by
        rw [charAt_set_ne (Ne.symm hne)]
        exact hanchor
      have hlen : (buffer.set (dest + 1) 0).length = buffer.length := List.length_set
      apply (ih (by omega) (by omega) hset).mono
      rintro o' ⟨hlength, hge, hle, hstop, htext⟩
      refine ⟨hlength.trans hlen, hge, Nat.le_succ_of_le hle, hstop, fun k hk => ?_⟩
      rw [htext k hk, charAt_set_ne (by omega)]

/-- The loop does not go below the root. -/
theorem eraseToParent_spec (root : Nat) {dest : Nat} (hlt : dest < buffer.length) (hroot : root ≤ dest) :
    Yields (eraseToParent root buffer dest) fun o' => o'.buffer.length = buffer.length ∧
      root ≤ o'.dest ∧ o'.dest ≤ dest ∧ (o'.dest = root ∨ o'.dest < dest) ∧
        ∀ k ≤ o'.dest, charAt o'.buffer k = charAt buffer k := by
  induction dest generalizing buffer with
  | zero =>
    obtain rfl := Nat.le_zero.mp hroot
    unfold eraseToParent
    rw [if_pos rfl]
    exact .ok ⟨rfl, Nat.le_refl 0, Nat.le_refl 0, .inl rfl, fun _ _ => rfl⟩
  | succ dest ih =>
    unfold eraseToParent
    split
    · rename_i hstop
      exact .ok ⟨rfl, hroot, Nat.le_refl _, .inl hstop, fun _ _ => rfl⟩
    · rename_i hgo
      rw [if_neg (by omega)]
      dsimp only
      have hlen : (buffer.set (dest + 1) 0).length = buffer.length := List.length_set
      have htext : ∀ k ≤ dest, charAt (buffer.set (dest + 1) 0) k = charAt buffer k :=
        fun k hk => charAt_set_ne (by omega)
      split
      · exact .ok ⟨hlen, Nat.le_of_lt_succ (Nat.lt_of_le_of_ne hroot (Ne.symm hgo)), Nat.le_succ dest,
          .inr (Nat.lt_succ_self dest), htext⟩
      · apply (ih (by omega) (by omega)).mono
        rintro o' ⟨hlength, hge, hle, hstop, hsame⟩
        refine ⟨hlength.trans hlen, hge, Nat.le_succ_of_le hle, by omega, fun k hk => ?_⟩
        rw [hsame k hk, htext k (by omega)]

/-- `..` leaves the cursor behind the root. -/
theorem dotDot_spec (hB : 1 ≤ B) (hlt : o.dest < o.buffer.length) (hanchor : Anchored B o) :
    Yields (dotDot B o) fun o' => Shortened o o' ∧ B ≤ o'.dest := by
  obtain ⟨q, hq, hqd, hch⟩ := hanchor
  unfold dotDot
  apply (eraseToSeparator_spec hlt (Nat.le_of_lt hqd) hch).bind
  rintro o₁ ⟨hlength₁, hge₁, hle₁, hstop₁, htext₁⟩
  apply (eraseToParent_spec (B - 1) (by omega) (by omega)).bind
  rintro o₂ ⟨hlength₂, hge₂, hle₂, hstop₂, htext₂⟩
  split
  · rename_i hroot
    refine .ok ⟨⟨hlength₂.trans hlength₁, ?_, fun k hk => ?_⟩, ?_⟩
    · change o₂.dest + 1 ≤ o.dest
      omega
    · have hk' : k ≤ o₂.dest := Nat.le_of_lt_succ hk
      exact (htext₂ k hk').trans (htext₁ k (by omega))
    · change B ≤ o₂.dest + 1
      omega
  · rename_i hroot
    refine .ok ⟨⟨hlength₂.trans hlength₁, by omega, fun k hk => ?_⟩, by omega⟩
    exact (htext₂ k (by omega)).trans (htext₁ k (by omega))

/-! ## The loop over the name -/

/-- What does not change while the loop runs. -/
structure Frame where
  name : List WCHAR
  /-- The characters of the path. -/
  allowed : List WCHAR
  backupIndex : Nat
  /-- From here on no backslash follows another. -/
  lo : Nat
  size : Nat
  /-- The characters of the buffer that may be used. -/
  limit : Nat
  limit_le : limit ≤ size
  root_pos : 1 ≤ backupIndex
  backslash_mem : backslash ∈ allowed
  name_subset : ∀ ch ∈ name, ch ∈ allowed

/-- What the buffer holds. -/
structure Text (f : Frame) (o : Output) : Prop where
  size : o.buffer.length = f.size
  chars : ∀ k < o.dest, charAt o.buffer k ∈ f.allowed
  single : ∀ k, f.lo ≤ k + 1 → k + 1 < o.dest → charAt o.buffer (k + 1) = backslash →
    charAt o.buffer k ≠ backslash

/-- What follows is a separator or the end of the name. -/
def Boundary (s : List WCHAR) (i source : Nat) : Prop :=
  s.length ≤ i ∨ isPathSeparator (charAt s source) = true

/-- No dot comes behind another. -/
def Flat (s : List WCHAR) : Prop := ∀ k, charAt s k = dot → charAt s (k + 1) ≠ dot

/-- `..` has an anchor, or there is no `..`. -/
def Settled (f : Frame) (o : Output) : Prop :=
  Anchored f.backupIndex o ∨ (0 < o.dest ∧ Flat f.name)

/-- A separator would be an anchor, or there is one already. -/
def Ready (B : Nat) (o : Output) : Prop :=
  B ≤ o.dest ∨ (o.dest + 1 = B ∧ 0 < o.dest ∧ charAt o.buffer (o.dest - 1) ≠ backslash)

/-- The invariant of the loop. -/
structure Inside (f : Frame) (i source : Nat) (o : Output) : Prop where
  text : Text f o
  room : o.dest + (f.name.length - i) < f.limit
  source_le : source ≤ i
  place : Settled f o ∨ (Boundary f.name i source ∧ Ready f.backupIndex o)

variable {f : Frame} {o' : Output}

theorem Text.shorten (h : Text f o) (hshort : Shortened o o') : Text f o' where
  size := hshort.length.trans h.size
  chars k hk := by
    rw [hshort.text k hk]
    exact h.chars k (Nat.lt_of_lt_of_le hk hshort.dest)
  single k hlo hk hch := by
    rw [hshort.text (k + 1) hk] at hch
    rw [hshort.text k (Nat.lt_of_succ_lt hk)]
    exact h.single k hlo (Nat.lt_of_lt_of_le hk hshort.dest) hch

theorem Text.push (h : Text f o) (hmem : ch ∈ f.allowed) (hlt : o.dest < o.buffer.length)
    (hsingle : ch = backslash → charAt o.buffer (o.dest - 1) ≠ backslash) :
    Text f ⟨o.buffer.set o.dest ch, o.dest + 1⟩ where
  size := List.length_set.trans h.size
  chars k hk := by
    change charAt (o.buffer.set o.dest ch) k ∈ f.allowed
    rcases Nat.lt_or_eq_of_le (Nat.le_of_lt_succ hk) with hk | rfl
    · rw [charAt_set_ne (Nat.ne_of_gt hk)]
      exact h.chars k hk
    · rw [charAt_set_self hlt]
      exact hmem
  single k hlo hk hch := by
    change charAt (o.buffer.set o.dest ch) (k + 1) = backslash at hch
    change charAt (o.buffer.set o.dest ch) k ≠ backslash
    have hk' : k + 1 ≤ o.dest := Nat.le_of_lt_succ hk
    rw [charAt_set_ne (by omega)]
    rcases Nat.lt_or_eq_of_le hk' with hlt' | heq
    · rw [charAt_set_ne (by omega)] at hch
      exact h.single k hlo hlt' hch
    · rw [heq, charAt_set_self hlt] at hch
      have hlast := hsingle hch
      rw [← heq, Nat.add_sub_cancel] at hlast
      exact hlast

theorem Anchored.push (h : Anchored B o) (ch : WCHAR) :
    Anchored B ⟨o.buffer.set o.dest ch, o.dest + 1⟩ := by
  obtain ⟨q, hq, hlt, hch⟩ := h
  refine ⟨q, hq, Nat.lt_succ_of_lt hlt, ?_⟩
  change charAt (o.buffer.set o.dest ch) q = backslash
  rw [charAt_set_ne (Nat.ne_of_gt hlt)]
  exact hch

theorem Anchored.dest_pos (h : Anchored B o) : 0 < o.dest := by
  obtain ⟨q, -, hlt, -⟩ := h
  exact Nat.zero_lt_of_lt hlt

namespace Settled

theorem dest_pos (h : Settled f o) : 0 < o.dest := by
  rcases h with hanchor | ⟨hpos, -⟩
  · exact hanchor.dest_pos
  · exact hpos

theorem push (h : Settled f o) (ch : WCHAR) :
    Settled f ⟨o.buffer.set o.dest ch, o.dest + 1⟩ := by
  rcases h with hanchor | ⟨-, hflat⟩
  · exact .inl (hanchor.push ch)
  · exact .inr ⟨Nat.succ_pos _, hflat⟩

end Settled

namespace Inside

theorem dest_lt (h : Inside f i source o) : o.dest < o.buffer.length := by
  have := h.text.size
  have := h.room
  have := f.limit_le
  omega

theorem dest_pos (h : Inside f i source o) : 0 < o.dest := by
  rcases h.place with hsettled | ⟨-, hready | hready⟩
  · exact hsettled.dest_pos
  · exact Nat.lt_of_lt_of_le f.root_pos hready
  · exact hready.2.1

/-- In the middle of a name the place is settled. -/
theorem settled (h : Inside f i source o) (hlt : i < f.name.length)
    (hch : isPathSeparator (charAt f.name source) = false) : Settled f o := by
  rcases h.place with hsettled | ⟨hend | hseparator, -⟩
  · exact hsettled
  · exact absurd hend (Nat.not_le_of_lt hlt)
  · rw [hch] at hseparator
    cases hseparator

/-- Characters are passed over. -/
theorem advance (h : Inside f i source o) (hsettled : Settled f o) {m k : Nat} (hk : k ≤ m) :
    Inside f (i + m) (source + k) o where
  text := h.text
  room := by
    have := h.room
    omega
  source_le := by
    have := h.source_le
    omega
  place := .inl hsettled

theorem separator (h : Inside f i source o) (hlt : i < f.name.length) :
    Yields (separator o) (Inside f (i + 1) (source + 1)) := by
  have hroom := h.room
  have hprevious := Output.previous_eq h.dest_pos (Nat.le_of_lt h.dest_lt)
  unfold DosPath.separator
  rw [hprevious]
  change Yields (if charAt o.buffer (o.dest - 1) = backslash then pure o else o.push backslash) _
  apply Yields.ite
  · intro hch
    apply Yields.ok
    apply h.advance _ (Nat.le_refl 1)
    rcases h.place with hsettled | ⟨-, hready | hready⟩
    · exact hsettled
    · have hpos := h.dest_pos
      exact .inl ⟨o.dest - 1, by omega, by omega, hch⟩
    · exact absurd hch hready.2.2
  · intro hch
    rw [Output.push_eq h.dest_lt]
    apply Yields.ok
    constructor
    case text => exact h.text.push f.backslash_mem h.dest_lt fun _ => hch
    case room =>
      change o.dest + 1 + (f.name.length - (i + 1)) < f.limit
      omega
    case source_le => exact Nat.succ_le_succ h.source_le
    case place =>
      left
      have hself : charAt (o.buffer.set o.dest backslash) o.dest = backslash :=
        charAt_set_self h.dest_lt
      rcases h.place with hsettled | ⟨-, hready | hready⟩
      · exact hsettled.push backslash
      · exact .inl ⟨o.dest, Nat.le_succ_of_le hready, Nat.lt_succ_self _, hself⟩
      · exact .inl ⟨o.dest, Nat.le_of_eq hready.1.symm, Nat.lt_succ_self _, hself⟩

theorem dotDot (h : Inside f i source o) (hlt : i < f.name.length)
    (hdots : isDotDotUstr f.name source (f.name.length - i) = true) :
    Yields (dotDot f.backupIndex o) (Inside f (i + 2) (source + 2)) := by
  have hroom := h.room
  simp only [isDotDotUstr, isDotUstr, Bool.and_eq_true, Bool.or_eq_true, decide_eq_true_eq,
    beq_iff_eq] at hdots
  obtain ⟨⟨-, hdot⟩, ⟨hone, hsecond⟩, hend⟩ := hdots
  have hch : isPathSeparator (charAt f.name source) = false := by
    rw [hdot]
    decide
  have hanchor : Anchored f.backupIndex o := by
    rcases h.settled hlt hch with hanchor | ⟨-, hflat⟩
    · exact hanchor
    · exact absurd hsecond (hflat source hdot)
  apply (dotDot_spec f.root_pos h.dest_lt hanchor).mono
  rintro o' ⟨hshort, hroot⟩
  constructor
  case text => exact h.text.shorten hshort
  case room =>
    have := hshort.dest
    omega
  case source_le =>
    have := h.source_le
    omega
  case place =>
    right
    refine ⟨?_, .inl hroot⟩
    rcases hend with hend | hend
    · left
      omega
    · exact .inr hend

end Inside

/-- The default branch copies up to the end of a component. -/
theorem copyComponent_spec {j : Nat} (htext : Text f o) (hsettled : Settled f o)
    (hroom : o.dest + j < f.limit) (hname : source + j ≤ f.name.length) :
    Yields (copyComponent f.name j source o) fun r => source ≤ r.1 ∧ r.1 ≤ source + j ∧
      Text f r.2 ∧ Settled f r.2 ∧ r.2.dest = o.dest + (r.1 - source) ∧
        (r.1 = source + j ∨ isPathSeparator (charAt f.name r.1) = true) := by
  induction j generalizing source o with
  | zero =>
    exact .ok ⟨Nat.le_refl _, Nat.le_refl _, htext, hsettled, by simp, .inl rfl⟩
  | succ j ih =>
    unfold copyComponent
    split
    · rename_i hseparator
      exact .ok ⟨Nat.le_refl _, Nat.le_add_right _ _, htext, hsettled, by simp, .inr hseparator⟩
    · rename_i hcopy
      have hlt : o.dest < o.buffer.length := by
        have := htext.size
        have := f.limit_le
        omega
      have hmem : charAt f.name source ∈ f.allowed := by
        apply f.name_subset
        unfold charAt
        rw [List.getElem?_eq_getElem (by omega)]
        exact List.getElem_mem _
      have hne : charAt f.name source ≠ backslash := by
        intro heq
        rw [heq] at hcopy
        exact hcopy (by decide)
      rw [Output.push_eq hlt]
      have hnext := htext.push hmem hlt fun heq => absurd heq hne
      have hroom' : o.dest + 1 + j < f.limit := by omega
      apply (ih hnext (hsettled.push _) hroom' (by omega)).mono
      rintro ⟨next, o'⟩ ⟨hge, hle, htext', hsettled', hdest, hstop⟩
      refine ⟨by omega, by omega, htext', hsettled', ?_, ?_⟩
      · change o'.dest = o.dest + (next - source)
        change o'.dest = o.dest + 1 + (next - (source + 1)) at hdest
        omega
      · rcases hstop with hstop | hstop
        · exact .inl (by omega)
        · exact .inr hstop

/-- The dot that goes is not the first character of a component. -/
theorem dropDot_spec (hsettled : Settled f o) (hle : o.dest ≤ o.buffer.length) (hlong : 1 < o.dest) :
    Yields (dropDot s source o) fun o' => Shortened o o' ∧ Settled f o' := by
  have hpos := hsettled.dest_pos
  have hkeep : Shortened o o ∧ Settled f o := ⟨.refl o, hsettled⟩
  unfold dropDot
  apply Yields.ite
  · intro hseparator
    rw [Output.previous_eq hpos hle]
    change Yields (if charAt o.buffer (o.dest - 1) = dot then o.back else pure o) _
    apply Yields.ite
    · intro hdot
      rw [Output.back_eq hpos]
      refine .ok ⟨⟨rfl, Nat.sub_le _ _, fun _ _ => rfl⟩, ?_⟩
      rcases hsettled with ⟨q, hq, hlt, hch⟩ | ⟨-, hflat⟩
      · left
        have hne : q ≠ o.dest - 1 := by
          rintro rfl
          rw [hdot] at hch
          exact absurd hch (by decide)
        refine ⟨q, hq, ?_, hch⟩
        change q < o.dest - 1
        omega
      · exact .inr ⟨Nat.sub_pos_of_lt hlong, hflat⟩
    · intro _
      exact .ok hkeep
  · intro _
    exact .ok hkeep

/-- The loop stays in its bounds. -/
theorem walk_spec {rounds : Nat} (h : Inside f i source o) :
    Yields (walk f.name f.backupIndex rounds i source o) fun o' =>
      Text f o' ∧ o'.dest < f.limit := by
  induction rounds generalizing i source o with
  | zero =>
    have := h.room
    exact .ok ⟨h.text, by omega⟩
  | succ rounds ih =>
    unfold walk
    apply Yields.ite
    · intro _
      have := h.room
      exact .ok ⟨h.text, by omega⟩
    intro hlt
    have hlt := Nat.lt_of_not_le hlt
    apply Yields.ite
    · intro _
      -- a separator
      apply (h.separator hlt).bind
      intro o' h'
      exact ih h'
    intro hseparator
    have hsettled := h.settled hlt (Bool.eq_false_iff.mpr hseparator)
    apply Yields.ite
    · intro _
      apply Yields.ite
      · intro _
        apply Yields.ite
        · intro _
          exact ih (h.advance hsettled (Nat.le_refl 2))
        · intro _
          exact ih (h.advance hsettled (Nat.le_refl 1))
      · intro _
        apply Yields.ite
        · intro hdots
          apply (h.dotDot hlt hdots).bind
          intro o' h'
          exact ih h'
        · intro _
          exact ih (h.advance hsettled (Nat.zero_le 1))
    · intro _
      have hroom := h.room
      have hle := h.source_le
      have hpos := h.dest_pos
      apply (copyComponent_spec h.text hsettled hroom (by omega)).bind
      rintro ⟨next, o₁⟩ ⟨hge, hnext, htext₁, hsettled₁, hdest₁, hstop⟩
      dsimp only at hge hnext htext₁ hsettled₁ hdest₁ hstop ⊢
      have hsize : o₁.dest ≤ o₁.buffer.length := by
        have := htext₁.size
        have := f.limit_le
        omega
      -- the first character is not a separator, so it has been copied
      have hmoved : next ≠ source := by
        rintro rfl
        rcases hstop with hstop | hstop
        · omega
        · exact hseparator hstop
      apply (dropDot_spec hsettled₁ hsize (by omega)).bind
      rintro o₂ ⟨hshort, hsettled₂⟩
      apply ih
      constructor
      case text => exact htext₁.shorten hshort
      case room =>
        have := hshort.dest
        omega
      case source_le => omega
      case place => exact .inl hsettled₂

/-! ## Behind the loop -/

theorem trimEnd_spec {dest : Nat} (hlt : dest < buffer.length) (hnull : charAt buffer dest = 0) :
    Shortened ⟨buffer, dest⟩ (trimEnd buffer dest) ∧
      charAt (trimEnd buffer dest).buffer (trimEnd buffer dest).dest = 0 := by
  induction dest generalizing buffer with
  | zero => exact ⟨.refl _, hnull⟩
  | succ dest ih =>
    unfold trimEnd
    split
    · have hlen : (buffer.set dest 0).length = buffer.length := List.length_set
      have hlt' : dest < buffer.length := Nat.lt_of_succ_lt hlt
      obtain ⟨hshort, hend⟩ := ih (hlen.symm ▸ hlt') (charAt_set_self hlt')
      refine ⟨⟨hshort.length.trans hlen, Nat.le_succ_of_le hshort.dest, fun k hk => ?_⟩, hend⟩
      have hkd : k < dest := Nat.lt_of_lt_of_le hk hshort.dest
      exact (hshort.text k hk).trans (charAt_set_ne (Nat.ne_of_gt hkd))
    · exact ⟨.refl _, hnull⟩

theorem stripSlash_spec (hlt : o.dest < o.buffer.length) (hnull : charAt o.buffer o.dest = 0) :
    Yields (stripSlash s B o) fun o' => Shortened o o' ∧ o'.dest < o'.buffer.length ∧
      charAt o'.buffer o'.dest = 0 := by
  unfold stripSlash
  apply Yields.ite
  · rintro -
    have hlt' : o.dest - 1 < o.buffer.length := Nat.lt_of_le_of_lt (Nat.sub_le _ _) hlt
    rw [Output.store_eq hlt']
    refine .ok ⟨⟨List.length_set, Nat.sub_le _ _, fun k hk => ?_⟩, ?_, charAt_set_self hlt'⟩
    · exact charAt_set_ne (Nat.ne_of_gt hk)
    · change o.dest - 1 < (o.buffer.set (o.dest - 1) 0).length
      rw [List.length_set]
      exact hlt'
  · intro _
    exact .ok ⟨.refl o, hlt, hnull⟩

/-- The path ends with a null. -/
theorem finish_spec (hlt : o.dest < o.buffer.length) :
    Yields (finish s B o) fun o' => Shortened o o' ∧ charAt o'.buffer o'.dest = 0 := by
  have hlen : (o.buffer.set o.dest 0).length = o.buffer.length := List.length_set
  have hshort : Shortened o { o with buffer := o.buffer.set o.dest 0 } :=
    ⟨hlen, Nat.le_refl _, fun k hk => charAt_set_ne (Nat.ne_of_gt hk)⟩
  have hlt' : o.dest < (o.buffer.set o.dest 0).length := by
    rw [hlen]
    exact hlt
  have hstrip : Yields (stripSlash s B { o with buffer := o.buffer.set o.dest 0 }) _ :=
    stripSlash_spec hlt' (charAt_set_self hlt)
  unfold finish
  rw [Output.store_eq hlt]
  apply hstrip.bind
  rintro o' ⟨hshort', hlt'', hnull⟩
  obtain ⟨htrim, hend⟩ := trimEnd_spec hlt'' hnull
  exact .ok ⟨(hshort.trans hshort').trans htrim, hend⟩

/-! ## The prefix -/

theorem rtlCopyMemory_eq {start : Nat} {source' : List WCHAR}
    (h : start + source'.length ≤ buffer.length) :
    rtlCopyMemory buffer start source' =
      .ok (buffer.take start ++ source' ++ buffer.drop (start + source'.length)) := if_pos h

theorem length_copied {start : Nat} {source' : List WCHAR}
    (h : start + source'.length ≤ buffer.length) :
    (buffer.take start ++ source' ++ buffer.drop (start + source'.length)).length =
      buffer.length := by
  simp only [List.length_append, List.length_take, List.length_drop]
  omega

theorem charAt_copied {start : Nat} {source' : List WCHAR}
    (h : start + source'.length ≤ buffer.length) (k : Nat) :
    charAt (buffer.take start ++ source' ++ buffer.drop (start + source'.length)) k =
      if k < start then charAt buffer k
      else if k < start + source'.length then charAt source' (k - start)
      else charAt buffer k := by
  have htake : (buffer.take start).length = start := List.length_take_of_le (by omega)
  unfold charAt
  rw [List.append_assoc]
  split
  · rename_i hk
    rw [List.getElem?_append_left (by omega), List.getElem?_take_of_lt hk]
  · rename_i hk
    rw [List.getElem?_append_right (by omega), htake]
    split
    · rw [List.getElem?_append_left (by omega)]
    · rw [List.getElem?_append_right (by omega), List.getElem?_drop]
      congr 2
      omega

/-- A separator is copied as a backslash. -/
def toBackslash (ch : WCHAR) : WCHAR := if isPathSeparator ch then backslash else ch

theorem charAt_map_toBackslash {s : List WCHAR} {k : Nat} (hk : k < s.length) :
    charAt (s.map fun ch => if isPathSeparator ch then backslash else ch) k =
      toBackslash (charAt s k) := by
  unfold charAt toBackslash
  rw [List.getElem?_map, List.getElem?_eq_getElem hk]
  rfl

theorem toBackslash_of_separator (h : isPathSeparator ch = true) :
    toBackslash ch = backslash := if_pos h

/-- The prefix is in the buffer, and `Dest` behind it. -/
structure Placed (s : List WCHAR) (x : Start) (o : Output) : Prop where
  size : o.buffer.length = x.buffer.length
  dest : o.dest = x.prefixSource + x.pathPrefix.length
  source : ∀ k < x.prefixSource, charAt o.buffer k = toBackslash (charAt s k)
  pathPrefix : x.inPlace = false → ∀ k < x.pathPrefix.length,
    charAt o.buffer (x.prefixSource + k) = toBackslash (charAt x.pathPrefix k)
  inPlace : x.inPlace = true → x.prefixSource = 0 → o.buffer = x.buffer

theorem putPrefix_spec {x : Start} (hsource : x.prefixSource ≤ s.length)
    (hroom : x.prefixSource + x.pathPrefix.length ≤ x.buffer.length) : Yields (putPrefix s x) (Placed s x) := by
  have htake : ((s.take x.prefixSource).map
      fun ch => if isPathSeparator ch then backslash else ch).length = x.prefixSource := by
    rw [List.length_map, List.length_take_of_le hsource]
  unfold putPrefix
  dsimp only
  apply Yields.ite
  · intro hcopy
    have hone : 0 + ((s.take x.prefixSource).map
        fun ch => if isPathSeparator ch then backslash else ch).length ≤ x.buffer.length := by
      rw [htake]
      omega
    -- what comes from the name is copied first, and the prefix behind it
    unfold copyPrefix
    rw [rtlCopyMemory_eq hone]
    have hlen := length_copied hone
    obtain ⟨first, hfirst⟩ : ∃ first, first = x.buffer.take 0 ++ (s.take x.prefixSource).map
        (fun ch => if isPathSeparator ch then backslash else ch) ++ x.buffer.drop (0 +
          ((s.take x.prefixSource).map
            fun ch => if isPathSeparator ch then backslash else ch).length) := ⟨_, rfl⟩
    have hchars := charAt_copied hone
    rw [← hfirst] at hlen hchars ⊢
    have htwo : x.prefixSource + (x.pathPrefix.map
        fun ch => if isPathSeparator ch then backslash else ch).length ≤ first.length := by
      rw [List.length_map, hlen]
      exact hroom
    change Yields (do
      let buffer ← rtlCopyMemory first x.prefixSource _
      return _) _
    rw [rtlCopyMemory_eq htwo]
    apply Yields.ok
    constructor
    case size => exact (length_copied htwo).trans hlen
    case dest => rfl
    case source =>
      intro k hk
      refine (charAt_copied htwo k).trans ?_
      rw [if_pos hk, hchars, if_neg (Nat.not_lt_zero k), htake, if_pos (by omega), Nat.sub_zero,
        charAt_map_toBackslash (by rw [List.length_take_of_le hsource]; exact hk)]
      unfold charAt
      rw [List.getElem?_take_of_lt hk]
    case pathPrefix =>
      intro _ k hk
      refine (charAt_copied htwo _).trans ?_
      rw [if_neg (by omega), List.length_map, if_pos (by omega), Nat.add_sub_cancel_left,
        charAt_map_toBackslash hk]
    case inPlace =>
      intro hin hzero
      rcases hcopy with hcopy | hcopy
      · exact absurd hzero hcopy
      · rw [hin] at hcopy
        cases hcopy
  · intro hkeep
    apply Yields.ok
    constructor
    case size => rfl
    case dest => rfl
    case source =>
      intro k hk
      exact absurd (Or.inl (Nat.ne_of_gt (Nat.zero_lt_of_lt hk))) hkeep
    case pathPrefix =>
      intro hin
      exact absurd (Or.inr hin) hkeep
    case inPlace => exact fun _ _ => rfl

/-! ## Names the loop does not move in -/

theorem walk_end (rounds source : Nat) (o : Output) (h : s.length ≤ i) :
    walk s B rounds i source o = .ok o := by
  cases rounds with
  | zero => rfl
  | succ rounds =>
    unfold walk
    exact if_pos h

theorem not_isDotUstr {len : Nat} (hlen : len ≠ 1)
    (hnext : isPathSeparator (charAt s (source + 1)) = false) :
    isDotUstr s source len = false := by
  unfold isDotUstr
  rw [hnext, Bool.or_false]
  by_cases hpos : 1 ≤ len
  · have hmore : decide (len - 1 = 0) = false := decide_eq_false (by omega)
    rw [hmore, Bool.and_false]
  · rw [decide_eq_false hpos]
    rfl

/-- A dot before another character stops the loop, up to the end of the name. -/
theorem walk_stay (hdot : charAt s source = dot)
    (hnext : isPathSeparator (charAt s (source + 1)) = false)
    (hone : charAt s (source + 1) ≠ dot) (rounds : Nat) (o : Output) :
    walk s B rounds i source o = .ok o := by
  induction rounds generalizing i with
  | zero => rfl
  | succ rounds ih =>
    have hseparator : isPathSeparator (charAt s source) = false := by
      rw [hdot]
      decide
    have hdots : isDotDotUstr s source (s.length - i) = false := by
      unfold isDotDotUstr isDotUstr
      simp [hone]
    unfold walk
    by_cases hend : s.length ≤ i
    · exact if_pos hend
    · rw [if_neg hend, hseparator, if_neg Bool.false_ne_true, if_pos hdot, hdots,
        if_neg Bool.false_ne_true]
      by_cases hlast : s.length - i = 1
      · have hskip : ¬ (i + 1 < s.length ∧ isPathSeparator (charAt s (source + 1)) = true) :=
          fun h => absurd h.1 (by omega)
        rw [if_neg hskip, walk_end _ _ _ (by omega)]
        split
        · rfl
        · exact ih
      · rw [not_isDotUstr hlast hnext, if_neg Bool.false_ne_true]
        exact ih

theorem walk_dot (rounds : Nat) (o : Output) : walk [dot] B rounds 0 0 o = .ok o := by
  cases rounds with
  | zero => rfl
  | succ rounds =>
    unfold walk
    have hdot : isDotUstr [dot] 0 1 = true := by decide
    have hseparator : isPathSeparator (charAt [dot] 0) = false := by decide
    have hchar : charAt [dot] 0 = dot := rfl
    rw [if_neg (by decide), hseparator, if_neg Bool.false_ne_true, if_pos hchar]
    change (if isDotUstr [dot] 0 1 = true then _ else _) = _
    rw [if_pos hdot, if_neg (by decide)]
    exact walk_end _ _ _ (Nat.le_refl 1)

end Ldk.DosPath
