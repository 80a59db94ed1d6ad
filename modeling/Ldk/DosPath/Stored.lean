import Ldk.DosPath.Normalize

/-!
# What is stored

Whenever `RtlGetFullPathName_Ustr` comes to its end with a path, the path is in the buffer, with a
null behind it (`stored_path`). Nothing is asked of the name or of the current directory here: a
run that leaves the buffer does not come to its end.
-/

namespace Ldk.DosPath

variable {o : Output} {ch : WCHAR} {s buffer : List WCHAR} {B k : Nat}

/-! ## The size of the buffer -/

/-- The output has a buffer of `k` characters. -/
def HasSize (k : Nat) (o : Output) : Prop := o.buffer.length = k

theorem ensures_store (h : HasSize k o) :
    Ensures (o.store ch) fun o' => HasSize k o' ∧ o'.dest = o.dest ∧ o.dest < k ∧
      charAt o'.buffer o.dest = ch := by
  unfold Output.store
  apply Ensures.ite
  · intro hlt
    exact .ok ⟨List.length_set.trans h, rfl, h ▸ hlt, charAt_set_self hlt⟩
  · intro _
    exact .error _ _

theorem ensures_push (h : HasSize k o) : Ensures (o.push ch) (HasSize k) := by
  apply (ensures_store h).bind
  rintro o' ⟨hsize, -⟩
  exact .ok hsize

theorem ensures_back (h : HasSize k o) : Ensures o.back (HasSize k) := by
  unfold Output.back
  apply Ensures.ite
  · intro _
    exact .error _ _
  · intro _
    exact .ok h

theorem ensures_previous : Ensures o.previous fun _ => True := ⟨fun _ _ => trivial⟩

theorem ensures_separator (h : HasSize k o) : Ensures (separator o) (HasSize k) := by
  apply ensures_previous.bind
  intro ch _
  apply Ensures.ite
  · intro _
    exact .ok h
  · intro _
    exact ensures_push h

theorem ensures_eraseToSeparator {dest : Nat} (h : buffer.length = k) :
    Ensures (eraseToSeparator buffer dest) (HasSize k) := by
  induction dest generalizing buffer with
  | zero =>
    unfold eraseToSeparator
    split
    · apply Ensures.ite
      · intro _
        exact .ok h
      · intro _
        exact .error _ _
    · exact .error _ _
  | succ dest ih =>
    unfold eraseToSeparator
    split
    · apply Ensures.ite
      · intro _
        exact .ok h
      · intro _
        exact ih (List.length_set.trans h)
    · exact .error _ _

theorem ensures_eraseToParent {floor dest : Nat} (h : buffer.length = k) :
    Ensures (eraseToParent floor buffer dest) (HasSize k) := by
  induction dest generalizing buffer with
  | zero =>
    unfold eraseToParent
    apply Ensures.ite
    · intro _
      exact .ok h
    · intro _
      exact .error _ _
  | succ dest ih =>
    have hset : (buffer.set (dest + 1) 0).length = k := List.length_set.trans h
    unfold eraseToParent
    apply Ensures.ite
    · intro _
      exact .ok h
    · intro _
      apply Ensures.ite
      · intro _
        exact .error _ _
      · intro _
        apply Ensures.ite
        · intro _
          exact .ok hset
        · intro _
          exact ih hset

theorem ensures_dotDot (h : HasSize k o) : Ensures (dotDot B o) (HasSize k) := by
  apply (ensures_eraseToSeparator h).bind
  intro o₁ h₁
  apply (ensures_eraseToParent h₁).bind
  intro o₂ h₂
  apply Ensures.ok
  split
  · exact h₂
  · exact h₂

theorem ensures_copyComponent {j source : Nat} (h : HasSize k o) :
    Ensures (copyComponent s j source o) fun r => HasSize k r.2 := by
  induction j generalizing source o with
  | zero => exact .ok h
  | succ j ih =>
    unfold copyComponent
    apply Ensures.ite
    · intro _
      exact .ok h
    · intro _
      apply (ensures_push h).bind
      intro o' h'
      exact ih h'

theorem ensures_dropDot {source : Nat} (h : HasSize k o) :
    Ensures (dropDot s source o) (HasSize k) := by
  unfold dropDot
  apply Ensures.ite
  · intro _
    apply ensures_previous.bind
    intro ch _
    apply Ensures.ite
    · intro _
      exact ensures_back h
    · intro _
      exact .ok h
  · intro _
    exact .ok h

theorem ensures_walk {rounds i source : Nat} (h : HasSize k o) :
    Ensures (walk s B rounds i source o) (HasSize k) := by
  induction rounds generalizing i source o with
  | zero => exact .ok h
  | succ rounds ih =>
    unfold walk
    apply Ensures.ite
    · intro _
      exact .ok h
    intro _
    apply Ensures.ite
    · intro _
      apply (ensures_separator h).bind
      intro o' h'
      exact ih h'
    intro _
    apply Ensures.ite
    · intro _
      apply Ensures.ite
      · intro _
        apply Ensures.ite
        · intro _
          exact ih h
        · intro _
          exact ih h
      · intro _
        apply Ensures.ite
        · intro _
          apply (ensures_dotDot h).bind
          intro o' h'
          exact ih h'
        · intro _
          exact ih h
    · intro _
      apply (ensures_copyComponent h).bind
      rintro ⟨next, o₁⟩ h₁
      apply (ensures_dropDot h₁).bind
      intro o₂ h₂
      exact ih h₂

/-- The null behind the path has been stored, so it is in the buffer. -/
theorem ensures_finish (h : HasSize k o) :
    Ensures (finish s B o) fun o' => HasSize k o' ∧ o'.dest < k ∧ charAt o'.buffer o'.dest = 0 := by
  by_cases hlt : o.dest < o.buffer.length
  · obtain ⟨o', ho', hshort, hnull⟩ := finish_spec (s := s) (B := B) hlt
    rw [ho']
    refine .ok ⟨hshort.length.trans h, ?_, hnull⟩
    exact Nat.lt_of_le_of_lt hshort.dest (h ▸ hlt)
  · have hfault : o.store 0 = .error .outside := if_neg hlt
    unfold finish
    rw [hfault]
    exact .error _ _

/-! ## The prefix -/

theorem ensures_rtlCopyMemory {start : Nat} {source : List WCHAR} (h : buffer.length = k) :
    Ensures (rtlCopyMemory buffer start source) fun buffer' => buffer'.length = k := by
  unfold rtlCopyMemory
  apply Ensures.ite
  · intro hroom
    exact .ok ((length_copied hroom).trans h)
  · intro _
    exact .error _ _

theorem ensures_putPrefix {x : Start} (h : x.buffer.length = k) :
    Ensures (putPrefix s x) (HasSize k) := by
  unfold putPrefix
  apply Ensures.ite
  · intro _
    apply (ensures_rtlCopyMemory h).bind
    intro first hfirst
    apply (ensures_rtlCopyMemory hfirst).bind
    intro second hsecond
    exact .ok hsecond
  · intro _
    exact .ok h

/-- A path that is stored lies in the buffer, with its null. -/
def Complete (k : Nat) : Outcome → Prop
  | .returned _ => True
  | .stored o _ => HasSize k o ∧ o.dest < k ∧ charAt o.buffer o.dest = 0

theorem ensures_skipit {pathType : RtlPathType} {x : Start} (h : HasSize k o) :
    Ensures (skipit s pathType x o) (Complete k) := by
  apply (ensures_store h).bind
  rintro o₁ ⟨h₁, -⟩
  apply (ensures_walk h₁).bind
  intro o₂ h₂
  apply (ensures_finish h₂).bind
  intro o₃ h₃
  exact .ok h₃

theorem ensures_build {n : Nat} {pathType : RtlPathType} {x : Start} (h : x.buffer.length = k) :
    Ensures (build s n pathType x) (Complete k) := by
  have hput : Ensures (putPrefix s x >>= skipit s pathType x) (Complete k) :=
    (ensures_putPrefix h).bind fun o ho => ensures_skipit ho
  unfold build
  apply Ensures.ite
  · intro _
    apply Ensures.ite
    · intro _
      exact .ok trivial
    intro _
    apply Ensures.ite
    · intro _
      apply Ensures.ite
      · intro _
        exact .ok trivial
      · intro _
        exact hput
    · intro _
      apply Ensures.ite
      · intro _
        exact .ok trivial
      · intro _
        apply (ensures_rtlCopyMemory h).bind
        intro buffer hbuffer
        exact ensures_skipit hbuffer
  · intro _
    exact hput

/-- What the switch sets up has a buffer of `k` characters. -/
def Sized (k : Nat) : Switched → Prop
  | .leave _ => True
  | .go x => x.buffer.length = k

theorem ensures_otherDrive {c : Context} {n : Nat} (h : buffer.length = k) :
    Ensures (otherDrive c s n buffer) (Sized k) := by
  unfold otherDrive
  dsimp only
  split
  · exact .ok h
  · apply Ensures.ite
    · intro _
      exact .ok trivial
    · intro _
      apply (ensures_rtlCopyMemory h).bind
      intro first hfirst
      apply Ensures.ite
      · intro _
        apply (ensures_rtlCopyMemory hfirst).bind
        intro second hsecond
        exact .ok hsecond
      · intro _
        exact .ok hfirst

theorem ensures_switch {c : Context} {n : Nat} {pathType : RtlPathType} (h : buffer.length = k) :
    Ensures (switchPathType c s n buffer pathType) (Sized k) := by
  unfold switchPathType
  dsimp only
  cases pathType with
  | unknown => exact .ok trivial
  | uncAbsolute => exact .ok h
  | driveAbsolute => exact .ok h
  | rooted => exact .ok h
  | relative => exact .ok h
  | localDevice => exact .ok h
  | rootLocalDevice => exact .ok h
  | driveRelative =>
    apply Ensures.ite
    · intro _
      exact .ok h
    · intro _
      exact ensures_otherDrive h

/-! ## The function -/

theorem ensures_devicePath {n offset length : Nat} (h : buffer.length = k) :
    Ensures (devicePath s n buffer offset length) (Complete k) := by
  have hfour : slashSlashDot.length = 4 := rfl
  unfold devicePath
  dsimp only
  apply Ensures.ite
  · intro _
    apply (ensures_rtlCopyMemory h).bind
    intro first hfirst
    apply (ensures_rtlCopyMemory hfirst).bind
    intro second hsecond
    by_cases hroom : 4 + length / 2 + [(0 : WCHAR)].length ≤ second.length
    · have hdest : (length + 2 * slashSlashDot.length) / 2 = 4 + length / 2 := by
        rw [hfour]
        omega
      have hnull : charAt (second.take (4 + length / 2) ++ [0] ++
          second.drop (4 + length / 2 + [(0 : WCHAR)].length)) (4 + length / 2) = 0 := by
        rw [charAt_copied hroom, if_neg (Nat.lt_irrefl _), Nat.sub_self,
          if_pos (by rw [List.length_singleton]; omega)]
        rfl
      rw [rtlCopyMemory_eq hroom, Yields.ok_bind, hdest]
      refine .ok ⟨(length_copied hroom).trans hsecond, ?_, hnull⟩
      rw [← hsecond]
      exact hroom
    · obtain ⟨fault, hfault⟩ := rtlCopyMemory_faults (Nat.lt_of_not_le hroom)
      rw [hfault]
      exact .error _ _
  · intro _
    exact .ok trivial

/-- A path that comes out is in the buffer, with its null. -/
theorem stored_path (c : Context) (s : List WCHAR) (nBufferLength : Nat) (lpBuffer : List WCHAR) :
    Ensures (rtlGetFullPathNameUstr c s nBufferLength lpBuffer) fun p =>
      Complete lpBuffer.length p.outcome := by
  unfold rtlGetFullPathNameUstr
  dsimp only
  apply Ensures.ite
  · intro _
    exact .ok trivial
  intro _
  apply Ensures.ite
  · intro _
    exact .ok trivial
  intro _
  apply Ensures.ite
  · intro _
    apply Ensures.ite
    · intro _
      exact .ok trivial
    · intro _
      apply (ensures_devicePath rfl).bind
      intro out hout
      exact .ok hout
  · intro _
    apply (ensures_rtlCopyMemory rfl).bind
    intro buffer hbuffer
    apply (ensures_switch hbuffer).bind
    rintro (k | x) hx
    · exact .ok trivial
    · apply (ensures_build hx).bind
      intro out hout
      exact .ok hout

end Ldk.DosPath
