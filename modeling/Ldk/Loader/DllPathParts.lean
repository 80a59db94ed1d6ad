import Ldk.Loader.DllPath

/-!
# The parts of a search path

What each part of `LdkpComputeDllPath` leaves, with the blocks it has allocated.

- `Directory of a path`: what comes before its last separator (`beforeLast`).
- `Outcome`: a string, or a status for which there is a reason.
- `Filled`: a zeroed block with a text at its beginning.
- `Appends`: a text is appended, or else it has no room.
-/

namespace Ldk.Loader

open OutputBuffer Environment Allocations Joined

/-! ## Directories -/

/-- What comes before the last sign of a kind. -/
def beforeLast (p : WCHAR → Bool) : List WCHAR → Option (List WCHAR)
  | [] => none
  | ch :: rest =>
    match beforeLast p rest with
    | some front => some (ch :: front)
    | none => if p ch then some [] else none

/-- The directory of a name; that of the root of a drive has its separator. -/
def loadDirectory (name : List WCHAR) : List WCHAR :=
  match beforeLast isPathSeparator name with
  | none => []
  | some front => if front.length = 2 ∧ name[1]? = some 0x3a then name.take 3 else front

/-- The directory of an image, without a separator behind it. -/
def imageDirectory (path : List WCHAR) : List WCHAR :=
  (beforeLast (fun ch => ch == 0x5c) path).getD path

variable {p : WCHAR → Bool} {text : List WCHAR}

theorem beforeLast_concat (text : List WCHAR) (ch : WCHAR) :
    beforeLast p (text ++ [ch]) = if p ch then some text else beforeLast p text := by
  induction text with
  | nil => rfl
  | cons c text ih =>
    show (match beforeLast p (text ++ [ch]) with
      | some front => some (c :: front)
      | none => if p c then some [] else none) = _
    rw [ih]
    by_cases hch : p ch = true
    · rw [if_pos hch, if_pos hch]
    · rw [if_neg hch, if_neg hch]
      rfl

/-- There is a sign behind what comes before it. -/
theorem beforeLast_split {front : List WCHAR} (h : beforeLast p text = some front) :
    ∃ ch rest, text = front ++ ch :: rest := by
  induction text generalizing front with
  | nil => cases h
  | cons c text ih =>
    change (match beforeLast p text with
      | some front => some (c :: front)
      | none => if p c then some [] else none) = some front at h
    cases hrest : beforeLast p text with
    | some front' =>
      rw [hrest] at h
      obtain rfl := Option.some.inj h
      obtain ⟨ch, rest, rfl⟩ := ih hrest
      exact ⟨ch, rest, rfl⟩
    | none =>
      rw [hrest] at h
      dsimp only at h
      split at h
      · obtain rfl := Option.some.inj h
        exact ⟨c, text, rfl⟩
      · cases h

/-- The first loop finds the last separator. -/
theorem lastSeparator_eq (text : List WCHAR) (i : Nat) (last : Option Nat) :
    lastSeparator text i last =
      match beforeLast isPathSeparator text with
      | some front => some (i + front.length)
      | none => last := by
  induction text generalizing i last with
  | nil => rfl
  | cons ch text ih =>
    show lastSeparator text (i + 1) _ = _
    rw [ih]
    show _ = match (match beforeLast isPathSeparator text with
      | some front => some (ch :: front)
      | none => if isPathSeparator ch then some [] else none) with
      | some front => some (i + front.length)
      | none => last
    cases beforeLast isPathSeparator text with
    | some front =>
      dsimp only
      rw [List.length_cons]
      congr 1
      omega
    | none =>
      dsimp only
      by_cases hch : isPathSeparator ch = true
      · rw [if_pos hch, if_pos hch]
        rfl
      · rw [if_neg hch, if_neg hch]

/-- So does the second one, from the end. -/
theorem imageDirectoryLength_eq (text : List WCHAR) {n : Nat} (hn : n ≤ text.length) :
    imageDirectoryLength text n =
      ((beforeLast (fun ch => ch == 0x5c) (text.take n)).map List.length).getD text.length := by
  induction n with
  | zero => rfl
  | succ n ih =>
    have hlt : n < text.length := hn
    have htake : text.take (n + 1) = text.take n ++ [text[n]] :=
      List.take_succ_eq_append_getElem hlt
    show (if text[n]? = some 0x5c then n else imageDirectoryLength text n) = _
    rw [htake, beforeLast_concat, List.getElem?_eq_getElem hlt, ih (Nat.le_of_lt hlt)]
    by_cases hch : text[n] = 0x5c
    · rw [if_pos (congrArg some hch), if_pos (by rw [hch]; rfl)]
      exact (List.length_take_of_le (Nat.le_of_lt hlt)).symm
    · rw [if_neg fun h => hch (Option.some.inj h), if_neg fun h => hch (eq_of_beq h)]

/-- The image's directory begins its path. -/
theorem imageDirectory_eq (path : List WCHAR) :
    imageDirectory path = path.take (imageDirectoryLength path path.length) := by
  rw [imageDirectoryLength_eq path (Nat.le_refl _), List.take_length]
  unfold imageDirectory
  cases hfront : beforeLast (fun ch => ch == 0x5c) path with
  | none => exact (List.take_length).symm
  | some front =>
    obtain ⟨ch, rest, rfl⟩ := beforeLast_split hfront
    exact (List.take_left).symm

theorem imageDirectoryLength_le (path : List WCHAR) :
    imageDirectoryLength path path.length ≤ path.length := by
  rw [imageDirectoryLength_eq path (Nat.le_refl _), List.take_length]
  cases hfront : beforeLast (fun ch => ch == 0x5c) path with
  | none => exact Nat.le_refl _
  | some front =>
    obtain ⟨ch, rest, rfl⟩ := beforeLast_split hfront
    show front.length ≤ _
    rw [List.length_append]
    exact Nat.le_add_right _ _

/-! ## Outcomes -/

/-- A value with the property, or a status for which there is a reason. -/
def Outcome {α : Type} (P : α → Prop) (reason : Prop) : Except Stop α → Prop
  | .ok a => P a
  | .error (.status _) => reason
  | .error (.outside _) => False

/-- Some request to the heap fails. -/
def Refuses (succeeds : Nat → Bool) : Prop := ∃ n, succeeds n = false

/-- The string has these characters. -/
structure HeapString.Is (text : List WCHAR) (s : HeapString) : Prop where
  length : s.length = text.length
  chars : s.chars = text

/-- The blocks of a string. -/
abbrev HeapString.blocks (s : HeapString) : List Nat := s.block.toList

variable {α : Type} {P : α → Prop} {reason : Prop} {succeeds : Nat → Bool} {n : Nat}

theorem charCount_eq (n : Nat) : charCount n = n % 2 ^ 15 := by
  unfold charCount toUShort
  omega

theorem length_zeroed (n : Nat) : (zeroed n).length = n := List.length_replicate

theorem write_spec {buffer piece : List WCHAR} {start : Nat}
    (h : start + piece.length ≤ buffer.length) :
    write buffer start piece =
      .ok (buffer.take start ++ piece ++ buffer.drop (start + piece.length)) := by
  unfold write put
  rw [if_pos h]
  rfl

/-- A part of a text whose length and one more are kept. -/
theorem duplicate_adds {length : Nat} (hlength : length ≤ text.length)
    (hroom : length % 2 ^ 15 ≠ 2 ^ 15 - 1) (hsmall : length < 2 ^ 15) :
    Adds HeapString.blocks (duplicate succeeds text length)
      (Outcome (HeapString.Is (text.take length)) (Refuses succeeds)) := by
  have htake : (text.take length).length = length := List.length_take_of_le hlength
  have hcount := charCount_eq (length + 1)
  unfold duplicate
  by_cases hzero : length = 0
  · rw [if_pos hzero]
    apply Adds.pure
    · rw [hzero]
      exact ⟨rfl, rfl⟩
    · rfl
  · rw [if_neg hzero]
    apply Adds.allocate_bind
    · exact fun n hn => ⟨n, hn⟩
    · intro block
      have hwrite := @write_spec (zeroed (charCount (length + 1))) (text.take length) 0
        (by rw [length_zeroed, htake]; omega)
      have hyields : Yields (write (zeroed (charCount (length + 1))) 0 (text.take length))
          fun buffer => buffer.take length = text.take length := by
        refine ⟨_, hwrite, ?_⟩
        rw [List.take_zero, List.nil_append]
        nth_rewrite 1 [← htake]
        exact List.take_left
      apply Turns.yields_bind hyields
      intro buffer hbuffer
      apply Turns.pure
      · exact ⟨htake.symm, hbuffer⟩
      · rfl

/-- The text of a length whose successor is not kept does not fit. -/
theorem duplicate_outside {length : Nat} (hlength : length ≤ text.length)
    (hroom : length % 2 ^ 15 = 2 ^ 15 - 1) (h : Allocations) :
    Command.Ensures (duplicate (fun _ => true) text length) h fun r _ =>
      ∃ w, r = .error (.outside w) := by
  have htake : (text.take length).length = length := List.length_take_of_le hlength
  have hcount := charCount_eq (length + 1)
  have hfault : write (zeroed (charCount (length + 1))) 0 (text.take length) =
      .error (.outside ⟨0, (text.take length).length⟩) := by
    unfold write put
    rw [if_neg]
    · rfl
    · rw [length_zeroed, htake]
      omega
  unfold duplicate
  rw [if_neg (by omega), hfault]
  rintro r s' hrun
  cases hrun
  exact ⟨_, rfl⟩

theorem mem_of_mem_loadDirectory {name : List WCHAR} {ch : WCHAR} (h : ch ∈ loadDirectory name) :
    ch ∈ name := by
  unfold loadDirectory at h
  cases hfront : beforeLast isPathSeparator name with
  | none =>
    rw [hfront] at h
    cases h
  | some front =>
    rw [hfront] at h
    dsimp only at h
    split at h
    · exact List.mem_of_mem_take h
    · obtain ⟨_, _, rfl⟩ := beforeLast_split hfront
      exact List.mem_append_left _ h

/-- What is copied of a name is what is kept of its directory. -/
theorem duplicateDirectoryFromPath_eq (succeeds : Nat → Bool) (name : List WCHAR) :
    ∃ length, length ≤ name.length ∧ length = (loadDirectory name).length % 2 ^ 15 ∧
      name.take length = shortened (loadDirectory name) ∧
      duplicateDirectoryFromPath succeeds name = duplicate succeeds name length := by
  unfold duplicateDirectoryFromPath loadDirectory
  rw [lastSeparator_eq]
  cases hfront : beforeLast isPathSeparator name with
  | none => exact ⟨0, Nat.zero_le _, rfl, List.take_zero.trans List.take_nil.symm, rfl⟩
  | some front =>
    obtain ⟨ch, rest, hname⟩ := beforeLast_split hfront
    have hlength := congrArg List.length hname
    rw [List.length_append, List.length_cons] at hlength
    dsimp only
    rw [Nat.zero_add]
    by_cases hroot : front.length = 2 ∧ name[1]? = some 0x3a
    · have hthree : (name.take 3).length = 3 := List.length_take_of_le (by omega)
      rw [if_pos hroot, if_pos hroot, hroot.1]
      refine ⟨3, by omega, by omega, ?_, rfl⟩
      unfold shortened
      rw [hthree]
      exact (List.take_take.trans (by rfl)).symm
    · have hle : charCount front.length ≤ front.length := toUShort_half_le _
      rw [if_neg hroot, if_neg hroot]
      refine ⟨charCount front.length, by omega, charCount_eq _, ?_, rfl⟩
      rw [hname, List.take_append_of_le_length hle]
      rfl

/-! ## The value of PATH -/

/-- What the query leaves of a value. -/
def keptValue : Option (List WCHAR) → List WCHAR
  | none => []
  | some text =>
    if (shortened text).length = maxUShort / 2 - 2 then zeroed (maxUShort / 2 - 1)
    else shortened text

/-- No more characters than those of the value are left of it. -/
theorem keptValue_count (value : Option (List WCHAR)) :
    (keptValue value).countP (fun ch => ch != 0) ≤ (value.getD []).length ∧
      (value.getD [] = [] → keptValue value = []) := by
  cases value with
  | none => exact ⟨Nat.zero_le _, fun _ => rfl⟩
  | some text =>
    have hshort := length_shortened_eq text
    unfold keptValue
    dsimp only [Option.getD_some]
    split
    · refine ⟨?_, ?_⟩
      · rw [List.countP_eq_zero.2 fun ch hch => ?_]
        · exact Nat.zero_le _
        · rw [List.eq_of_mem_replicate hch]
          decide
      · rintro rfl
        rename_i hlast
        rw [hshort, List.length_nil] at hlast
        exact absurd hlast (by decide)
    · refine ⟨?_, ?_⟩
      · have hcount := (shortened text).countP_le_length (p := fun ch => ch != 0)
        omega
      · rintro rfl
        exact List.take_nil

/-- Where a value of the block is found. -/
def foundValue : Option (List WCHAR) → Found
  | none => .nowhere
  | some text => .block text

section

variable {block : Nat} {buffer : List WCHAR} {query : Query} {Q : HeapString → Prop}

/-- The last round. -/
theorem queryPath_done (rounds : Nat) (hrun : Yields (getEnvironmentVariableW query buffer)
    fun reply => reply.returned < reply.buffer.length ∧
      charCount reply.returned = text.length ∧ reply.buffer.take text.length = text) :
    Turns block HeapString.blocks (queryPath succeeds query (rounds + 1) block buffer)
      (Outcome (HeapString.Is text) (Refuses succeeds)) := by
  obtain ⟨reply, hreply, hlt, hlength, htake⟩ := hrun
  unfold queryPath
  rw [hreply]
  apply Turns.yields_bind ⟨reply, rfl, rfl⟩
  rintro _ rfl
  rw [if_pos hlt]
  apply Turns.pure
  · refine ⟨hlength, ?_⟩
    show reply.buffer.take (charCount reply.returned) = text
    rw [hlength]
    exact htake
  · rfl

/-- A round after which the block is reallocated. -/
theorem queryPath_again {rounds : Nat} {reply : Reply WCHAR NtStatus}
    (hrun : getEnvironmentVariableW query buffer = .ok reply)
    (hge : reply.buffer.length ≤ reply.returned)
    (hnext : ∀ larger, Turns larger HeapString.blocks
      (queryPath succeeds query rounds larger
        (reply.buffer.take (charCount (reply.returned + 1)) ++
          zeroed (charCount (reply.returned + 1) - reply.buffer.length)))
      (Outcome Q (Refuses succeeds))) :
    Turns block HeapString.blocks (queryPath succeeds query (rounds + 1) block buffer)
      (Outcome Q (Refuses succeeds)) := by
  unfold queryPath
  rw [hrun]
  apply Turns.yields_bind ⟨reply, rfl, rfl⟩
  rintro _ rfl
  rw [if_neg (Nat.not_lt_of_le hge)]
  apply Turns.reallocate_bind
  · exact hnext
  · intro n hn
    apply Turns.release_fail
    exact ⟨n, hn⟩

/-- A value of the block that fits. -/
theorem getEnvironmentVariableW_fits (hfits : text.length < clampSize buffer.length) :
    Yields (getEnvironmentVariableW (Answer.value text) buffer) fun reply =>
      reply.buffer.length = buffer.length ∧ reply.Delivers text := by
  apply getEnvironmentVariableW_delivers _ hfits
  rw [answer_value, if_pos (.inl hfits)]

/-- One that does not. -/
theorem getEnvironmentVariableW_asks (hne : text ≠ [])
    (hfull : clampSize buffer.length ≤ text.length) :
    getEnvironmentVariableW (Answer.value text) buffer = .ok ⟨text.length + 1, buffer, none⟩ := by
  apply getEnvironmentVariableW_tooSmall
  rw [answer_value, if_neg (not_or.2 ⟨Nat.not_lt_of_le hfull, hne⟩)]

/-- A value that fits in its block is delivered in the round. -/
theorem queryPath_fits (rounds : Nat) (hfits : text.length < clampSize buffer.length)
    (hsmall : text.length < 2 ^ 15) :
    Turns block HeapString.blocks
      (queryPath succeeds (Answer.value text) (rounds + 1) block buffer)
      (Outcome (HeapString.Is text) (Refuses succeeds)) := by
  apply queryPath_done
  apply (getEnvironmentVariableW_fits hfits).mono
  rintro reply ⟨hsize, hdone⟩
  have hle := (clampSize_le buffer.length).1
  have hcount := charCount_eq text.length
  have hreturned := hdone.returned
  refine ⟨by omega, by rw [hreturned]; omega, ?_⟩
  exact hdone.holds.left

/-- Two rounds are enough, but for values whose size is not kept. -/
theorem duplicateEnvironmentPath_adds (value : Option (List WCHAR)) (rounds : Nat)
    (hends : ∀ text ∈ value, text.length % 2 ^ 15 < maxUShort / 2 - 1) :
    Adds HeapString.blocks
      (duplicateEnvironmentPath succeeds (foundValue value).answer (rounds + 2))
      (Outcome (HeapString.Is (keptValue value)) (Refuses succeeds)) := by
  have hsize : (zeroed 4096).length = 4096 := length_zeroed _
  unfold duplicateEnvironmentPath
  apply Adds.allocate_bind
  · exact fun n hn => ⟨n, hn⟩
  · intro block
    cases value with
    | none =>
      apply queryPath_done
      refine ⟨⟨0, zeroed 4096, some .variableNotFound⟩, rfl, ?_, rfl, rfl⟩
      show 0 < (zeroed 4096).length
      omega
    | some text =>
      have hshort := hends text rfl
      rw [← length_shortened_eq] at hshort
      change Turns block _ (queryPath succeeds (Answer.value (shortened text)) _ _ _) _
      unfold keptValue
      dsimp only
      generalize shortened text = text at hshort
      generalize hbuffer : zeroed 4096 = buffer at hsize ⊢
      have hclamp : clampSize buffer.length = 4096 := by
        rw [hsize]
        rfl
      unfold maxUShort at hshort ⊢
      by_cases hfirst : text.length < 4096
      · rw [if_neg (by omega)]
        apply queryPath_fits
        · rw [hclamp]
          exact hfirst
        · omega
      · have hne : text ≠ [] := by
          rintro rfl
          exact hfirst (Nat.zero_lt_succ _)
        have hasks := @getEnvironmentVariableW_asks text buffer hne (by omega)
        have hcount := charCount_eq (text.length + 1 + 1)
        -- the block is all zeros and has room for the value and a null
        have hgrown : buffer.take (charCount (text.length + 1 + 1)) ++
            zeroed (charCount (text.length + 1 + 1) - buffer.length) =
            zeroed (text.length + 2) := by
          have hmore : 4096 + (charCount (text.length + 1 + 1) - 4096) = text.length + 2 := by omega
          rw [List.take_of_length_le (by omega), hsize, ← hbuffer]
          unfold zeroed
          rw [List.replicate_append_replicate, hmore]
        apply queryPath_again hasks
        · dsimp only
          omega
        · intro larger
          dsimp only
          rw [hgrown]
          have hlarger := length_zeroed (text.length + 2)
          by_cases hlast : text.length = (2 ^ 16 - 1) / 2 - 2
          · rw [if_pos hlast]
            have hfull := (clampSize_le (zeroed (text.length + 2)).length).2.1
            apply queryPath_done
            refine ⟨_, getEnvironmentVariableW_asks hne (by omega), ?_, ?_, ?_⟩
            · dsimp only
              omega
            · dsimp only
              rw [charCount_eq, length_zeroed]
              omega
            · dsimp only
              rw [length_zeroed]
              unfold zeroed
              rw [List.take_replicate]
              congr 1
              omega
          · rw [if_neg hlast]
            apply queryPath_fits
            · rw [hlarger]
              unfold clampSize maxUShort
              split
              · omega
              · omega
            · omega

/-- The other values are asked for without end. -/
theorem queryPath_diverges (htext : maxUShort / 2 - 1 ≤ text.length)
    (hsmall : text.length < 2 ^ 15) (rounds : Nat) (block : Nat) (hbuffer : buffer.length ≤ 4096)
    (h : Allocations) :
    queryPath (fun _ => true) (Answer.value text) rounds block buffer h = none := by
  induction rounds generalizing block buffer h with
  | zero => rfl
  | succ rounds ih =>
    unfold maxUShort at htext
    have hclamp := (clampSize_le buffer.length).1
    have hne : text ≠ [] := by
      rintro rfl
      rw [List.length_nil] at htext
      omega
    have hcount := charCount_eq (text.length + 1 + 1)
    unfold queryPath
    rw [getEnvironmentVariableW_asks hne (by omega)]
    show (if text.length + 1 < buffer.length then _ else _ : Code HeapString) h = none
    rw [if_neg (by omega)]
    have hresized : (buffer.take (charCount (text.length + 1 + 1)) ++
        zeroed (charCount (text.length + 1 + 1) - buffer.length)).length ≤ 4096 := by
      rw [List.length_append, List.length_take, length_zeroed]
      omega
    exact ih _ hresized _

end

/-! ## Elements of a path -/

/-- A zeroed block of some size that begins with a text. -/
def filled (size : Nat) (text : List WCHAR) : List WCHAR := text ++ zeroed (size - text.length)

/-- The text has been put in the zeroed block. -/
structure Filled (block : Option Nat) (size : Nat) (text : List WCHAR) (s : HeapString) : Prop where
  block : s.block = block
  buffer : s.buffer = filled size text
  length : s.length = text.length
  room : text.length ≤ size

/-- The text that is made has room and is there, or it has none and the status says so. -/
def Appends (block : Option Nat) (size : Nat) (text : List WCHAR) (x : Except Stop HeapString) :
    Prop :=
  text.length ≤ size ∧ Yields x (Filled block size text) ∨
    size < text.length ∧ x = .error (.status .bufferTooSmall)

section

variable {block : Option Nat} {size : Nat} {s : HeapString} {piece element : List WCHAR}

theorem length_filled (h : text.length ≤ size) : (filled size text).length = size := by
  unfold filled
  rw [List.length_append, length_zeroed]
  omega

theorem Filled.chars (h : Filled block size text s) : s.chars = text := by
  unfold HeapString.chars
  rw [h.buffer, h.length]
  exact List.take_left

/-- A null behind the text is there already. -/
theorem Filled.holds (h : Filled block size text s) (hlt : text.length < size) :
    OutputBuffer.Holds s.buffer (text ++ [0]) := by
  have hmore : size - text.length = (size - text.length - 1) + 1 := by omega
  unfold OutputBuffer.Holds
  rw [h.buffer]
  unfold filled zeroed
  rw [hmore, List.replicate_succ, List.length_append, List.length_singleton,
    ← List.singleton_append, ← List.append_assoc]
  exact List.take_left' (by rw [List.length_append, List.length_singleton])

/-- More text behind it. -/
theorem write_filled (h : text.length + piece.length ≤ size) :
    write (filled size text) text.length piece = .ok (filled size (text ++ piece)) := by
  have hsize := length_filled (Nat.le_of_add_right_le h)
  have htake : (filled size text).take text.length = text := List.take_left
  have hdrop : (filled size text).drop (text.length + piece.length) =
      zeroed (size - (text ++ piece).length) := by
    unfold filled zeroed
    rw [← List.drop_drop, List.drop_left, List.drop_replicate, List.length_append]
    congr 1
    omega
  rw [write_spec (by rw [hsize]; exact h), htake, hdrop]
  rfl

/-- A null behind it changes nothing. -/
theorem write_null (h : text.length < size) :
    write (filled size text) text.length [0] = .ok (filled size text) := by
  have hmore : size - text.length = (size - (text ++ [0]).length) + 1 := by
    rw [List.length_append, List.length_singleton]
    omega
  rw [write_filled (by rw [List.length_singleton]; omega)]
  unfold filled zeroed
  rw [hmore, List.replicate_succ, List.append_assoc, List.singleton_append]

theorem rtlAppend_appends (h : Filled block size text s) (piece : List WCHAR) :
    Appends block size (text ++ piece) (rtlAppend s piece) := by
  have hsize := length_filled h.room
  unfold Appends rtlAppend
  rw [h.buffer, hsize, h.length, List.length_append]
  by_cases hroom : text.length + piece.length ≤ size
  · refine .inl ⟨hroom, ?_⟩
    have hsum : (text ++ piece).length = text.length + piece.length := List.length_append
    have hlength : (filled size (text ++ piece)).length = size := length_filled (by omega)
    dsimp only
    rw [if_neg (Nat.not_lt_of_le hroom), write_filled hroom, Yields.ok_bind, hlength, ← hsum]
    apply Yields.ite
    · intro hlt
      rw [write_null hlt]
      exact .ok ⟨h.block, rfl, rfl, by omega⟩
    · intro _
      exact .ok ⟨h.block, rfl, rfl, by omega⟩
  · exact .inr ⟨Nat.lt_of_not_le hroom, if_pos (Nat.lt_of_not_le hroom)⟩

/-- One text after another. -/
theorem Appends.bind {x : Except Stop HeapString} {f : HeapString → Except Stop HeapString}
    (hx : Appends block size text x) (hle : text.length ≤ piece.length)
    (hf : ∀ s, Filled block size text s → Appends block size piece (f s)) :
    Appends block size piece (x >>= f) := by
  rcases hx with ⟨-, s, rfl, hs⟩ | ⟨hlt, rfl⟩
  · exact hf s hs
  · exact .inr ⟨Nat.lt_of_lt_of_le hlt hle, rfl⟩

theorem Filled.appends (h : Filled block size text s) : Appends block size text (.ok s) :=
  .inl ⟨h.room, .ok h⟩

theorem appendDllPathElement_appends (h : Filled block size text s) (element : List WCHAR) :
    Appends block size (glue semicolon text element) (appendDllPathElement s element) := by
  unfold appendDllPathElement
  by_cases hempty : element = []
  · rw [if_pos hempty, hempty, glue_nil]
    exact h.appends
  · rw [if_neg hempty]
    by_cases hfirst : text = []
    · rw [if_neg (by rw [h.length, hfirst]; exact fun hne => hne rfl), Yields.ok_bind, hfirst,
        nil_glue]
      rw [hfirst] at h
      exact rtlAppend_appends h element
    · have hlength : s.length ≠ 0 := by
        rw [h.length]
        exact fun hzero => hfirst (List.eq_nil_of_length_eq_zero hzero)
      rw [if_pos hlength,
        glue_of_ne_nil hfirst hempty, ← List.singleton_append, ← List.append_assoc]
      apply (rtlAppend_appends h [semicolon]).bind
      · exact (List.sublist_append_left _ _).length_le
      · exact fun s hs => rtlAppend_appends hs element

theorem appendAll_appends (elements : List (List WCHAR)) (h : Filled block size text s) :
    Appends block size (glue semicolon text (joined semicolon elements))
      (appendAll s elements) := by
  induction elements generalizing s text with
  | nil =>
    have hnil : glue semicolon text (joined semicolon []) = text := glue_nil text
    rw [hnil]
    exact h.appends
  | cons element rest ih =>
    have hcons : glue semicolon text (joined semicolon (element :: rest)) =
        glue semicolon (glue semicolon text element) (joined semicolon rest) :=
      (glue_assoc _ _ _).symm
    rw [hcons]
    apply (appendDllPathElement_appends h element).bind
    · exact length_le_glue _ _
    · exact fun s hs => ih hs

/-- A zeroed block to begin with. -/
theorem filled_zeroed (block : Option Nat) (size : Nat) :
    Filled block size [] ⟨block, zeroed size, 0⟩ :=
  ⟨rfl, rfl, rfl, Nat.zero_le _⟩

/-- All elements in a zeroed block. -/
theorem appendAll_zeroed (block : Option Nat) (size : Nat) (elements : List (List WCHAR)) :
    Appends block size (joined semicolon elements)
      (appendAll ⟨block, zeroed size, 0⟩ elements) := by
  have h := appendAll_appends elements (filled_zeroed block size)
  rwa [nil_glue] at h

end

/-- A string that is filled keeps its block, and else gives it back. -/
theorem fill_turns {block size : Nat} {contents : HeapString → Except Stop HeapString}
    {Q : HeapString → Prop}
    (h : Appends (some block) size text (contents ⟨some block, zeroed size, 0⟩))
    (hok : ∀ s, Filled (some block) size text s → Q s) (hfull : size < text.length → reason) :
    Turns block HeapString.blocks (fill ⟨some block, zeroed size, 0⟩ contents)
      (Outcome Q reason) := by
  unfold fill
  rcases h with ⟨-, s, hs, hfilled⟩ | ⟨hlt, herror⟩
  · rw [hs]
    apply Turns.attempt_bind
    apply Turns.pure
    · exact hok s hfilled
    · show s.block.toList = [block]
      rw [hfilled.block]
      rfl
  · rw [herror]
    apply Turns.attempt_bind
    apply Turns.release_fail
    exact hfull hlt

/-! ## The directories of the user -/

/-- The size of the directories does not fit in a `USHORT`. -/
def TooLong (directories : List (List WCHAR)) : Prop :=
  2 * ((joined semicolon directories).length + 1) > maxUShort

instance (directories : List (List WCHAR)) : Decidable (TooLong directories) :=
  inferInstanceAs (Decidable (_ > _))

theorem length_joined_cons (directories : List (List WCHAR)) :
    (joined semicolon directories).length =
      (directories.map List.length).sum +
        ((directories.countP fun directory => !directory.isEmpty) - 1) ∧
      (joined semicolon directories = [] ↔
        (directories.countP fun directory => !directory.isEmpty) = 0) := by
  induction directories with
  | nil => exact ⟨rfl, iff_of_true rfl rfl⟩
  | cons directory rest ih =>
    obtain ⟨hlength, hnil⟩ := ih
    show (glue semicolon directory (joined semicolon rest)).length = _ ∧
      (glue semicolon directory (joined semicolon rest) = [] ↔ _)
    rw [List.map_cons, List.sum_cons, glue_eq_nil_iff]
    cases directory with
    | nil =>
      rw [nil_glue, List.countP_cons_of_neg (by exact Bool.false_ne_true), List.length_nil,
        Nat.zero_add]
      exact ⟨hlength, (and_iff_right rfl).trans hnil⟩
    | cons ch directory =>
      rw [List.countP_cons_of_pos (by rfl)]
      refine ⟨?_, iff_of_false (fun h => List.cons_ne_nil _ _ h.1) (Nat.succ_ne_zero _)⟩
      by_cases hrest : joined semicolon rest = []
      · have hzero := hnil.1 hrest
        rw [hrest, List.length_nil] at hlength
        rw [hrest, glue_nil]
        omega
      · have hpos : (rest.countP fun directory => !directory.isEmpty) ≠ 0 :=
          fun h => hrest (hnil.2 h)
        rw [length_glue (List.cons_ne_nil _ _) hrest]
        omega

/-- The size is exact. -/
theorem requiredLength_eq (directories : List (List WCHAR)) :
    requiredLength directories = (joined semicolon directories).length + 1 := by
  rw [(length_joined_cons directories).1]
  unfold requiredLength
  dsimp only
  split
  · omega
  · omega

theorem duplicateUserDllDirectories_adds (directories : List (List WCHAR)) :
    Adds HeapString.blocks (duplicateUserDllDirectories succeeds directories)
      (Outcome (fun s => ¬ TooLong directories ∧ s.Is (joined semicolon directories))
        (Refuses succeeds ∨ TooLong directories)) := by
  have hnil := (length_joined_cons directories).2
  unfold duplicateUserDllDirectories
  rw [requiredLength_eq]
  by_cases hcount : (directories.countP fun directory => !directory.isEmpty) = 0
  · rw [if_pos hcount]
    have hempty := hnil.2 hcount
    apply Adds.pure
    · refine ⟨?_, ?_⟩
      · unfold TooLong
        rw [hempty]
        decide
      · rw [hempty]
        exact ⟨rfl, rfl⟩
    · rfl
  · rw [if_neg hcount]
    by_cases hlong : TooLong directories
    · have hsize : 2 * ((joined semicolon directories).length + 1) > maxUShort := hlong
      rw [if_pos hsize]
      exact Adds.fail (.inr hlong)
    · have hsize : ¬ 2 * ((joined semicolon directories).length + 1) > maxUShort := hlong
      rw [if_neg hsize]
      apply Adds.allocate_bind
      · exact fun n hn => .inl ⟨n, hn⟩
      · intro block
        have hroom := charCount_eq ((joined semicolon directories).length + 1)
        apply fill_turns (appendAll_zeroed _ _ directories)
        · exact fun s hs => ⟨hlong, hs.length, hs.chars⟩
        · unfold maxUShort at hsize
          intro hlt
          omega

end Ldk.Loader
