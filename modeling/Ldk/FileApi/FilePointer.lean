import Mathlib

/-!
# SetFilePointer and SetFilePointerEx

Two routines move the position of a file by a distance from the start of the file, from its
position or from its end. They differ in how they report: `SetFilePointer` returns the low part
of the new position or `INVALID_SET_FILE_POINTER`, `SetFilePointerEx` returns a `BOOL`.

- When the query of the position or of the size fails, `SetFilePointerEx` returns
  `INVALID_SET_FILE_POINTER` like its sibling, and that is not zero.
- In every other case the two agree (`set_file_pointers_agree`).

A status is any value of 32 bits, and the file system may answer with any of them.
-/

namespace Ldk.FileApi

/-! ## Numbers of the interface -/

/-- `NT_SUCCESS` -/
def ntSuccess (status : BitVec 32) : Bool := !status.slt 0

/-- `FILE_BEGIN`, `FILE_CURRENT` and `FILE_END` -/
def fileBegin : BitVec 32 := 0
def fileCurrent : BitVec 32 := 1
def fileEnd : BitVec 32 := 2

/-- `INVALID_SET_FILE_POINTER`, which the code writes as `(DWORD)-1`. -/
def invalidSetFilePointer : BitVec 32 := 0xffffffff

def maxLong : BitVec 32 := 0x7fffffff

def errorInvalidParameter : BitVec 32 := 87
def errorNegativeSeek : BitVec 32 := 131

/-- The parts of a `LARGE_INTEGER`. -/
def lowPart (quadPart : BitVec 64) : BitVec 32 := quadPart.extractLsb' 0 32
def highPart (quadPart : BitVec 64) : BitVec 32 := quadPart.extractLsb' 32 32

/-! ## The file and the native calls -/

/-- A file that is open for the calls, and the last error of the thread. -/
structure State where
  position : BitVec 64
  endOfFile : BitVec 64
  lastError : BitVec 32
  /-- Auxiliary: how often the position has been set. -/
  seeks : Nat
  deriving DecidableEq, Repr

/-- What `ZwQueryInformationFile` and `ZwSetInformationFile` return, and the table of
`RtlNtStatusToDosError`. -/
structure Native where
  queryStatus : BitVec 32
  setStatus : BitVec 32
  ntStatusToDosError : BitVec 32 → BitVec 32

namespace State

variable (s : State)

/-- `SetLastError` -/
def setLastError (error : BitVec 32) : State := { s with lastError := error }

/-- `LdkSetLastNTError` -/
def setLastNTError (native : Native) (status : BitVec 32) : State :=
  s.setLastError (native.ntStatusToDosError status)

/-- `ZwSetInformationFile` of `FilePositionInformation`, when it succeeds. -/
def setPosition (position : BitVec 64) : State :=
  { s with position := position, seeks := s.seeks + 1 }

@[simp] theorem setLastError_position (error : BitVec 32) :
    (s.setLastError error).position = s.position := rfl

@[simp] theorem setLastError_seeks (error : BitVec 32) :
    (s.setLastError error).seeks = s.seeks := rfl

@[simp] theorem setLastError_lastError (error : BitVec 32) :
    (s.setLastError error).lastError = error := rfl

@[simp] theorem setPosition_position (position : BitVec 64) :
    (s.setPosition position).position = position := rfl

@[simp] theorem setPosition_seeks (position : BitVec 64) :
    (s.setPosition position).seeks = s.seeks + 1 := rfl

end State

/-- What the switch on `dwMoveMethod` comes to. -/
inductive Origin where
  | offset (offset : BitVec 64)
  | queryFailed (status : BitVec 32)
  | unknown
  deriving DecidableEq

/-- The switch on `dwMoveMethod`, the same in both routines. -/
def Native.origin (native : Native) (s : State) (moveMethod : BitVec 32) : Origin :=
  if moveMethod = fileBegin then .offset 0
  else if moveMethod = fileCurrent then
    if ntSuccess native.queryStatus then .offset s.position else .queryFailed native.queryStatus
  else if moveMethod = fileEnd then
    if ntSuccess native.queryStatus then .offset s.endOfFile else .queryFailed native.queryStatus
  else .unknown

/-! ## The two routines -/

/-- What `SetFilePointer` returns and leaves at `lpDistanceToMoveHigh`. -/
structure Pointer where
  returned : BitVec 32
  distanceToMoveHigh : Option (BitVec 32)
  deriving DecidableEq

/-- What `SetFilePointerEx` returns and stores at `lpNewFilePointer`. -/
structure PointerEx where
  returned : BitVec 32
  newFilePointer : Option (BitVec 64)
  deriving DecidableEq

/-- The distance as `SetFilePointer` puts it together. -/
def distance (distanceToMove : BitVec 32) : Option (BitVec 32) → BitVec 64
  | some high => high ++ distanceToMove
  | none => distanceToMove.signExtend 64

/-- `SetFilePointer` -/
def setFilePointer (native : Native) (s : State) (distanceToMove : BitVec 32)
    (distanceToMoveHigh : Option (BitVec 32)) (moveMethod : BitVec 32) : Pointer × State :=
  match native.origin s moveMethod with
  | .queryFailed status =>
    (⟨invalidSetFilePointer, distanceToMoveHigh⟩, s.setLastNTError native status)
  | .unknown =>
    (⟨invalidSetFilePointer, distanceToMoveHigh⟩, s.setLastError errorInvalidParameter)
  | .offset offset =>
    let position := distance distanceToMove distanceToMoveHigh + offset
    if position.slt 0 then
      (⟨invalidSetFilePointer, distanceToMoveHigh⟩, s.setLastError errorNegativeSeek)
    else if distanceToMoveHigh = none ∧ highPart position &&& maxLong ≠ 0 then
      (⟨invalidSetFilePointer, distanceToMoveHigh⟩, s.setLastError errorInvalidParameter)
    else if ntSuccess native.setStatus then
      let moved := s.setPosition position
      (⟨lowPart position, distanceToMoveHigh.map fun _ => highPart position⟩,
        if lowPart position = invalidSetFilePointer then moved.setLastError 0 else moved)
    else
      (⟨invalidSetFilePointer, distanceToMoveHigh.map fun _ => 0xffffffff⟩,
        s.setLastNTError native native.setStatus)

/-- `SetFilePointerEx` -/
def setFilePointerEx (native : Native) (s : State) (distanceToMove : BitVec 64)
    (moveMethod : BitVec 32) : PointerEx × State :=
  match native.origin s moveMethod with
  -- the value that the sibling returns here, in a routine that returns a `BOOL`
  | .queryFailed status => (⟨invalidSetFilePointer, none⟩, s.setLastNTError native status)
  | .unknown => (⟨0, none⟩, s.setLastError errorInvalidParameter)
  | .offset offset =>
    let position := distanceToMove + offset
    if position.slt 0 then (⟨0, none⟩, s.setLastError errorNegativeSeek)
    else if ntSuccess native.setStatus then
      let moved := s.setPosition position
      (⟨1, some position⟩,
        if lowPart position = invalidSetFilePointer then moved.setLastError 0 else moved)
    else (⟨0, none⟩, s.setLastNTError native native.setStatus)

/-- How a caller of `SetFilePointer` tells that it has succeeded. -/
def Succeeded (run : Pointer × State) : Prop :=
  run.1.returned ≠ invalidSetFilePointer ∨ run.2.lastError = 0

/-! ## Parts of a LARGE_INTEGER -/

theorem highPart_append_lowPart (quadPart : BitVec 64) :
    highPart quadPart ++ lowPart quadPart = quadPart := by
  apply BitVec.eq_of_toNat_eq
  simp only [highPart, lowPart, BitVec.toNat_append, BitVec.extractLsb'_toNat,
    Nat.shiftRight_zero]
  rw [← Nat.shiftLeft_add_eq_or_of_lt (Nat.mod_lt _ (by decide)), Nat.shiftLeft_eq,
    Nat.shiftRight_eq_div_pow]
  have := quadPart.isLt
  omega

/-- The test for a position that needs a high part. -/
theorem highPart_and_maxLong {quadPart : BitVec 64} (hpositive : 0 ≤ quadPart.toInt) :
    highPart quadPart &&& maxLong = 0 ↔ quadPart.toNat < 2 ^ 32 := by
  have hhigh : (highPart quadPart).toNat = quadPart.toNat / 2 ^ 32 := by
    have := quadPart.isLt
    simp only [highPart, BitVec.extractLsb'_toNat, Nat.shiftRight_eq_div_pow]
    omega
  have hmask : (highPart quadPart &&& maxLong).toNat = quadPart.toNat / 2 ^ 32 % 2 ^ 31 := by
    rw [BitVec.toNat_and, hhigh, show maxLong.toNat = 2 ^ 31 - 1 by decide,
      Nat.and_two_pow_sub_one_eq_mod]
  rw [← BitVec.toNat_inj, hmask, BitVec.toInt_eq_toNat_cond] at *
  split at hpositive <;> simp <;> omega

/-- A sum of a distance and an offset into the file that is not negative has not wrapped. -/
theorem toInt_add_of_nonneg {move offset : BitVec 64} (hoffset : 0 ≤ offset.toInt)
    (hsum : ¬ (move + offset).slt 0) : (move + offset).toInt = offset.toInt + move.toInt := by
  rw [BitVec.slt_iff_toInt_lt] at hsum
  change ¬ (move + offset).toInt < 0 at hsum
  rw [BitVec.toInt_add] at *
  have := move.toInt_lt
  have := move.le_toInt
  have := offset.toInt_lt
  rw [Int.bmod_def] at *
  omega

/-! ## Where a move leads -/

/-- Where the distance is counted from. -/
def State.start (s : State) (moveMethod : BitVec 32) : Option Int :=
  if moveMethod = fileBegin then some 0
  else if moveMethod = fileCurrent then some s.position.toInt
  else if moveMethod = fileEnd then some s.endOfFile.toInt
  else none

/-- From `s` to `s'` the position has been set to the exact sum. -/
def SetToSum (s s' : State) (move : BitVec 64) (moveMethod : BitVec 32) : Prop :=
  s'.seeks = s.seeks + 1 ∧
    ∃ start, s.start moveMethod = some start ∧ s'.position.toInt = start + move.toInt

/-- The position has not been set. -/
def Unmoved (s s' : State) : Prop := s'.position = s.position ∧ s'.seeks = s.seeks

theorem Unmoved.not_setToSum {s s' : State} {move : BitVec 64} {moveMethod : BitVec 32}
    (h : Unmoved s s') : ¬ SetToSum s s' move moveMethod := by
  rintro ⟨hseeks, _⟩
  have := h.2
  omega

/-- The native calls let the file move to `target`, and that is no negative position. -/
def Moves (native : Native) (s : State) (move : BitVec 64) (moveMethod : BitVec 32)
    (target : BitVec 64) : Prop :=
  ∃ offset, native.origin s moveMethod = .offset offset ∧ target = move + offset ∧
    ¬ target.slt 0 ∧ ntSuccess native.setStatus

/-- The query that the move method asks for fails. -/
def QueryFails (native : Native) (moveMethod : BitVec 32) : Prop :=
  (moveMethod = fileCurrent ∨ moveMethod = fileEnd) ∧ ¬ ntSuccess native.queryStatus

/-- The error codes of statuses that are no success are not `ERROR_SUCCESS`. -/
def Native.MapsErrors (native : Native) : Prop :=
  ∀ status, ¬ ntSuccess status → native.ntStatusToDosError status ≠ 0

section Moving

variable {native : Native} {s : State} {moveMethod : BitVec 32}

theorem origin_queryFailed_iff :
    (∃ status, native.origin s moveMethod = .queryFailed status) ↔
      QueryFails native moveMethod := by
  unfold Native.origin QueryFails
  constructor
  · rintro ⟨status, h⟩
    split_ifs at h with _ hcurrent hquery hend hquery
    · exact ⟨Or.inl hcurrent, hquery⟩
    · exact ⟨Or.inr hend, hquery⟩
  · rintro ⟨rfl | rfl, hquery⟩
    · exact ⟨native.queryStatus, by simp [fileCurrent, fileBegin, hquery]⟩
    · exact ⟨native.queryStatus, by simp [fileCurrent, fileBegin, fileEnd, hquery]⟩

theorem ntSuccess_of_origin {status : BitVec 32}
    (h : native.origin s moveMethod = .queryFailed status) : ¬ ntSuccess status := by
  unfold Native.origin at h
  split_ifs at h <;> cases h <;> assumption

theorem start_of_origin {offset : BitVec 64} (h : native.origin s moveMethod = .offset offset) :
    s.start moveMethod = some offset.toInt := by
  unfold Native.origin at h
  unfold State.start
  split_ifs at h ⊢ <;> cases h <;> rfl

theorem offset_nonneg {offset : BitVec 64} (hposition : 0 ≤ s.position.toInt)
    (hsize : 0 ≤ s.endOfFile.toInt) (h : native.origin s moveMethod = .offset offset) :
    0 ≤ offset.toInt := by
  unfold Native.origin at h
  split_ifs at h <;> cases h
  · decide
  · exact hposition
  · exact hsize

/-- A move that is let through is the exact sum. -/
theorem Moves.setToSum {move target : BitVec 64} {s' : State}
    (hposition : 0 ≤ s.position.toInt) (hsize : 0 ≤ s.endOfFile.toInt)
    (h : Moves native s move moveMethod target) (hseeks : s'.seeks = s.seeks + 1)
    (htarget : s'.position = target) : SetToSum s s' move moveMethod := by
  obtain ⟨offset, horigin, rfl, hsum, _⟩ := h
  have hoffset := offset_nonneg hposition hsize horigin
  exact ⟨hseeks, offset.toInt, start_of_origin horigin,
    by rw [htarget, toInt_add_of_nonneg hoffset hsum]⟩

theorem Moves.unique {move target target' : BitVec 64}
    (h : Moves native s move moveMethod target) (h' : Moves native s move moveMethod target') :
    target' = target := by
  obtain ⟨offset, horigin, rfl, _⟩ := h
  obtain ⟨offset', horigin', rfl, _⟩ := h'
  rw [horigin] at horigin'
  cases horigin'
  rfl

/-! ## What each routine does -/

/-- `SetFilePointerEx` either moves the file and says so, or leaves it where it is. -/
theorem setFilePointerEx_spec (native : Native) (s : State) (move : BitVec 64)
    (moveMethod : BitVec 32) :
    let run := setFilePointerEx native s move moveMethod
    (∃ target, Moves native s move moveMethod target ∧ run.1 = ⟨1, some target⟩ ∧
      run.2.position = target ∧ run.2.seeks = s.seeks + 1) ∨
    ((∀ target, ¬ Moves native s move moveMethod target) ∧ Unmoved s run.2 ∧
      (run.1.returned ≠ 0 ↔ QueryFails native moveMethod)) := by
  rw [← origin_queryFailed_iff (s := s)]
  unfold setFilePointerEx Moves
  cases horigin : native.origin s moveMethod with
  | queryFailed status => exact Or.inr ⟨by simp, ⟨rfl, rfl⟩, by simp [invalidSetFilePointer]⟩
  | unknown => exact Or.inr ⟨by simp, ⟨rfl, rfl⟩, by simp⟩
  | offset offset =>
    dsimp only
    split_ifs with hnegative hset hlow
    · exact Or.inr ⟨by simpa using fun h => absurd hnegative (by simpa using h),
        ⟨rfl, rfl⟩, by simp⟩
    · exact Or.inl ⟨_, ⟨offset, rfl, rfl, hnegative, hset⟩, rfl, rfl, rfl⟩
    · exact Or.inl ⟨_, ⟨offset, rfl, rfl, hnegative, hset⟩, rfl, rfl, rfl⟩
    · exact Or.inr ⟨by simp [hset], ⟨rfl, rfl⟩, by simp⟩

/-- The position has no room in the value that `SetFilePointer` returns. -/
def NeedsHighPart (distanceToMoveHigh : Option (BitVec 32)) (target : BitVec 64) : Prop :=
  distanceToMoveHigh = none ∧ ¬ target.toNat < 2 ^ 32

/-- `SetFilePointer` either moves the file and says so, or leaves it where it is and says that
it has failed. -/
theorem setFilePointer_spec (hmaps : native.MapsErrors) (low : BitVec 32)
    (high : Option (BitVec 32)) :
    let run := setFilePointer native s low high moveMethod
    (∃ target, Moves native s (distance low high) moveMethod target ∧
      ¬ NeedsHighPart high target ∧ Succeeded run ∧
      run.1 = ⟨lowPart target, high.map fun _ => highPart target⟩ ∧
      run.2.position = target ∧ run.2.seeks = s.seeks + 1) ∨
    ((∀ target, Moves native s (distance low high) moveMethod target →
        NeedsHighPart high target) ∧
      Unmoved s run.2 ∧ ¬ Succeeded run) := by
  unfold setFilePointer Moves Succeeded NeedsHighPart
  cases horigin : native.origin s moveMethod with
  | queryFailed status =>
    exact Or.inr ⟨by simp, ⟨rfl, rfl⟩,
      by simpa [State.setLastNTError] using hmaps status (ntSuccess_of_origin horigin)⟩
  | unknown => exact Or.inr ⟨by simp, ⟨rfl, rfl⟩, by simp [errorInvalidParameter]⟩
  | offset offset =>
    dsimp only
    generalize hposition : distance low high + offset = position
    have hpositive : ¬ position.slt 0 → 0 ≤ position.toInt := by
      rw [BitVec.slt_iff_toInt_lt]
      exact Int.not_lt.mp
    split_ifs with hnegative hwide hset hlow
    · exact Or.inr ⟨by simp_all, ⟨rfl, rfl⟩, by simp [errorNegativeSeek]⟩
    · refine Or.inr ⟨?_, ⟨rfl, rfl⟩, by simp [errorInvalidParameter]⟩
      rintro target ⟨offset', hoffset', rfl, _⟩
      cases hoffset'
      rw [Ne, highPart_and_maxLong (hpositive hnegative)] at hwide
      rw [hposition]
      exact hwide
    · refine Or.inl ⟨position, ⟨offset, rfl, hposition.symm, hnegative, hset⟩, ?_,
        Or.inr rfl, rfl, rfl, rfl⟩
      rwa [← highPart_and_maxLong (hpositive hnegative)]
    · refine Or.inl ⟨position, ⟨offset, rfl, hposition.symm, hnegative, hset⟩, ?_,
        Or.inl hlow, rfl, rfl, rfl⟩
      rwa [← highPart_and_maxLong (hpositive hnegative)]
    · exact Or.inr ⟨by simp [hset], ⟨rfl, rfl⟩,
        by simpa [State.setLastNTError] using hmaps _ hset⟩

end Moving

/-! ## The two routines agree -/

/-- The two routines keep their promises on one move, and keep the same ones. -/
structure Agree (native : Native) (s : State) (move : BitVec 64) (moveMethod : BitVec 32) :
    Prop where
  /-- `SetFilePointerEx` is not zero exactly when the position has been set to the sum. -/
  ex_succeeds : (setFilePointerEx native s move moveMethod).1.returned ≠ 0 ↔
    SetToSum s (setFilePointerEx native s move moveMethod).2 move moveMethod
  ex_reports : (setFilePointerEx native s move moveMethod).1.returned ≠ 0 →
    (setFilePointerEx native s move moveMethod).1.newFilePointer =
      some (setFilePointerEx native s move moveMethod).2.position
  ex_fails : (setFilePointerEx native s move moveMethod).1.returned = 0 →
    Unmoved s (setFilePointerEx native s move moveMethod).2
  /-- So is `SetFilePointer` with a high part, of the same inputs. -/
  high_succeeds :
    Succeeded (setFilePointer native s (lowPart move) (some (highPart move)) moveMethod) ↔
      SetToSum s (setFilePointer native s (lowPart move) (some (highPart move)) moveMethod).2 move
        moveMethod
  high_same :
    Succeeded (setFilePointer native s (lowPart move) (some (highPart move)) moveMethod) ↔
      (setFilePointerEx native s move moveMethod).1.returned ≠ 0
  high_position :
    (setFilePointer native s (lowPart move) (some (highPart move)) moveMethod).2.position =
      (setFilePointerEx native s move moveMethod).2.position
  high_reports :
    Succeeded (setFilePointer native s (lowPart move) (some (highPart move)) moveMethod) →
      ∃ high, (setFilePointer native s (lowPart move) (some (highPart move))
        moveMethod).1.distanceToMoveHigh = some high ∧
      high ++ (setFilePointer native s (lowPart move) (some (highPart move)) moveMethod).1.returned
        = (setFilePointerEx native s move moveMethod).2.position
  high_fails :
    ¬ Succeeded (setFilePointer native s (lowPart move) (some (highPart move)) moveMethod) →
      Unmoved s (setFilePointer native s (lowPart move) (some (highPart move)) moveMethod).2
  /-- Without a high part the position has to fit in 32 bits as well. -/
  low_succeeds : ∀ low : BitVec 32, low.signExtend 64 = move →
    (Succeeded (setFilePointer native s low none moveMethod) ↔
      (setFilePointerEx native s move moveMethod).1.returned ≠ 0 ∧
        (setFilePointerEx native s move moveMethod).2.position.toNat < 2 ^ 32)
  low_position : ∀ low : BitVec 32, low.signExtend 64 = move →
    Succeeded (setFilePointer native s low none moveMethod) →
      SetToSum s (setFilePointer native s low none moveMethod).2 move moveMethod ∧
      (setFilePointer native s low none moveMethod).1.returned.toNat =
        (setFilePointer native s low none moveMethod).2.position.toNat
  low_fails : ∀ low : BitVec 32, low.signExtend 64 = move →
    ¬ Succeeded (setFilePointer native s low none moveMethod) →
      Unmoved s (setFilePointer native s low none moveMethod).2

theorem lowPart_toNat_of_lt {target : BitVec 64} (h : target.toNat < 2 ^ 32) :
    (lowPart target).toNat = target.toNat := by
  rw [lowPart, BitVec.extractLsb'_toNat, Nat.shiftRight_zero, Nat.mod_eq_of_lt h]

section Agreement

variable {native : Native} {s : State} {moveMethod : BitVec 32}

/-- Without a high part, a move that the native calls let through is made when it fits. -/
theorem setFilePointer_low (hmaps : native.MapsErrors) {low : BitVec 32} {move target : BitVec 64}
    (hmove : low.signExtend 64 = move) (hmoves : Moves native s move moveMethod target) :
    (target.toNat < 2 ^ 32 ∧ Succeeded (setFilePointer native s low none moveMethod) ∧
      (setFilePointer native s low none moveMethod).1.returned = lowPart target ∧
      (setFilePointer native s low none moveMethod).2.position = target ∧
      (setFilePointer native s low none moveMethod).2.seeks = s.seeks + 1) ∨
    (¬ target.toNat < 2 ^ 32 ∧ ¬ Succeeded (setFilePointer native s low none moveMethod) ∧
      Unmoved s (setFilePointer native s low none moveMethod).2) := by
  have hspec := @setFilePointer_spec native s moveMethod hmaps low none
  rw [show distance low none = move from hmove] at hspec
  obtain ⟨t, ht, hfits, hsucceeded, hresult, hposition, hseeks⟩ | ⟨hwide, hunmoved, hfailed⟩ :=
    hspec
  · obtain rfl := hmoves.unique ht
    refine Or.inl ⟨?_, hsucceeded, by rw [hresult], hposition, hseeks⟩
    by_contra hwide
    exact hfits ⟨rfl, hwide⟩
  · exact Or.inr ⟨(hwide target hmoves).2, hfailed, hunmoved⟩

/-- A move that the native calls let through is made by both. -/
theorem agree_of_moves (hmaps : native.MapsErrors) (hposition : 0 ≤ s.position.toInt)
    (hsize : 0 ≤ s.endOfFile.toInt) {move target : BitVec 64}
    (hmoves : Moves native s move moveMethod target) : Agree native s move moveMethod := by
  have hmove : distance (lowPart move) (some (highPart move)) = move :=
    highPart_append_lowPart move
  obtain ⟨t, ht, hex, hexPosition, hexSeeks⟩ | ⟨hnone, _⟩ :=
    setFilePointerEx_spec native s move moveMethod
  swap
  · exact absurd hmoves (hnone target)
  have hhigh := @setFilePointer_spec native s moveMethod hmaps (lowPart move) (some (highPart move))
  rw [hmove] at hhigh
  obtain ⟨t', ht', _, hsucceeded, hresult, hhighPosition, hhighSeeks⟩ | ⟨hnone, _⟩ := hhigh
  swap
  · exact nomatch (hnone target hmoves).1
  obtain rfl := ht.unique ht'
  have hexReturned : (setFilePointerEx native s move moveMethod).1.returned ≠ 0 := by
    rw [hex]
    exact show (1 : BitVec 32) ≠ 0 by decide
  exact {
    ex_succeeds := iff_of_true hexReturned (ht.setToSum hposition hsize hexSeeks hexPosition)
    ex_reports := by
      intro _
      rw [hex, hexPosition]
    ex_fails := fun h => absurd h hexReturned
    high_succeeds :=
      iff_of_true hsucceeded (ht.setToSum hposition hsize hhighSeeks hhighPosition)
    high_same := iff_of_true hsucceeded hexReturned
    high_position := by rw [hhighPosition, hexPosition]
    high_reports := by
      intro _
      rw [hresult, hexPosition]
      exact ⟨highPart t', rfl, highPart_append_lowPart t'⟩
    high_fails := fun h => absurd hsucceeded h
    low_succeeds := by
      intro low hlowMove
      rw [hexPosition]
      rcases setFilePointer_low hmaps hlowMove ht with ⟨hfits, hsucceeded, _⟩ | ⟨hwide, hfailed, _⟩
      · exact iff_of_true hsucceeded ⟨hexReturned, hfits⟩
      · exact iff_of_false hfailed fun h => hwide h.2
    low_position := by
      intro low hlowMove hsucceeded
      rcases setFilePointer_low hmaps hlowMove ht with ⟨hfits, _, hreturned, hlowPosition, hseeks⟩ | ⟨_, hfailed, _⟩
      · refine ⟨ht.setToSum hposition hsize hseeks hlowPosition, ?_⟩
        rw [hreturned, hlowPosition, lowPart_toNat_of_lt hfits]
      · exact absurd hsucceeded hfailed
    low_fails := by
      intro low hlowMove hfailed
      rcases setFilePointer_low hmaps hlowMove ht with ⟨_, hsucceeded, _⟩ | ⟨_, _, hunmoved⟩
      · exact absurd hsucceeded hfailed
      · exact hunmoved }

/-- A move that the native calls do not let through is made by neither, and is reported by both
when it is not the query that has failed. -/
theorem agree_of_not_moves (hmaps : native.MapsErrors) {move : BitVec 64}
    (hquery : ¬ QueryFails native moveMethod)
    (hnot : ∀ target, ¬ Moves native s move moveMethod target) :
    Agree native s move moveMethod := by
  have hmove : distance (lowPart move) (some (highPart move)) = move :=
    highPart_append_lowPart move
  obtain ⟨t, ht, _⟩ | ⟨_, hexUnmoved, hexReturned⟩ :=
    setFilePointerEx_spec native s move moveMethod
  · exact absurd ht (hnot t)
  rw [iff_false_right hquery, not_not] at hexReturned
  have hfails : ∀ low high, distance low high = move →
      Unmoved s (setFilePointer native s low high moveMethod).2 ∧
        ¬ Succeeded (setFilePointer native s low high moveMethod) := by
    intro low high hmove
    have hspec := @setFilePointer_spec native s moveMethod hmaps low high
    rw [hmove] at hspec
    obtain ⟨t, ht, _⟩ | ⟨_, hfailed⟩ := hspec
    · exact absurd ht (hnot t)
    · exact hfailed
  obtain ⟨hhighUnmoved, hhighFailed⟩ := hfails _ _ hmove
  exact {
    ex_succeeds := iff_of_false (not_not.mpr hexReturned) hexUnmoved.not_setToSum
    ex_reports := fun h => absurd hexReturned h
    ex_fails := fun _ => hexUnmoved
    high_succeeds := iff_of_false hhighFailed hhighUnmoved.not_setToSum
    high_same := iff_of_false hhighFailed (not_not.mpr hexReturned)
    high_position := by rw [hhighUnmoved.1, hexUnmoved.1]
    high_reports := fun h => absurd h hhighFailed
    high_fails := fun _ => hhighUnmoved
    low_succeeds := by
      intro low hlowMove
      exact iff_of_false (hfails low none hlowMove).2 fun h => h.1 hexReturned
    low_position := fun low hlowMove h => absurd h (hfails low none hlowMove).2
    low_fails := fun low hlowMove _ => (hfails low none hlowMove).1 }

/-- A query that fails is reported by `SetFilePointerEx` as a success. -/
theorem not_agree_of_queryFails {move : BitVec 64} (hquery : QueryFails native moveMethod) :
    ¬ Agree native s move moveMethod := by
  intro hagree
  obtain ⟨status, horigin⟩ := (origin_queryFailed_iff (s := s)).mpr hquery
  obtain ⟨t, ⟨offset, horigin', _⟩, _⟩ | ⟨_, hunmoved, hreturned⟩ :=
    setFilePointerEx_spec native s move moveMethod
  · rw [horigin] at horigin'
    cases horigin'
  · exact hunmoved.not_setToSum (hagree.ex_succeeds.mp (hreturned.mpr hquery))

end Agreement

/-- The two routines agree on a move exactly when it asks for no query that fails. -/
theorem set_file_pointers_agree {native : Native} (hmaps : native.MapsErrors) {s : State}
    (hposition : 0 ≤ s.position.toInt) (hsize : 0 ≤ s.endOfFile.toInt) (move : BitVec 64)
    (moveMethod : BitVec 32) :
    Agree native s move moveMethod ↔ ¬ QueryFails native moveMethod := by
  constructor
  · intro hagree hquery
    exact not_agree_of_queryFails hquery hagree
  · intro hquery
    -- either there is a place to move to, or both fail
    by_cases hmoves : ∃ target, Moves native s move moveMethod target
    · obtain ⟨target, htarget⟩ := hmoves
      exact agree_of_moves hmaps hposition hsize htarget
    · exact agree_of_not_moves hmaps hquery (not_exists.mp hmoves)

/-- A file of 100 bytes with its position at 40. -/
def shortFile : State := ⟨40, 100, 0, 0⟩

/-- A file system whose calls succeed, or whose queries fail with `STATUS_INVALID_HANDLE`. -/
def answering : Native := ⟨0, 0, fun _ => 6⟩
def invalidHandle : Native := ⟨0xc0000008, 0xc0000008, fun _ => 6⟩

theorem shortFile_agrees :
    Agree answering shortFile 0xffffffffffffffff fileCurrent ↔
      ¬ QueryFails answering fileCurrent :=
  set_file_pointers_agree (fun _ _ => show (6 : BitVec 32) ≠ 0 by decide) (by decide) (by decide) _ _

/-- On a handle that is no file, `SetFilePointerEx` reports success. -/
theorem failed_query_is_success :
    (setFilePointerEx invalidHandle shortFile 1 fileCurrent).1.returned ≠ 0 ∧
      ¬ Agree invalidHandle shortFile 1 fileCurrent :=
  ⟨by decide, not_agree_of_queryFails ⟨Or.inl rfl, by decide⟩⟩

end Ldk.FileApi
