import Ldk.Loader.DllPathParts

/-!
# The order of the search path

The list of directories that `LdkpComputeDllPath` is to return, and when it does.

- The length of the directory of the name is kept in a `USHORT`. One of 32767 characters, or of so
  many more than a multiple of 32768, is copied to a block without room.
- A value of `PATH` with 32766 or 32767 characters is queried again and again, and one with 32765
  leaves zeros.
- The size of the path wraps around. The elements then have no room, but for sizes that happen to
  be large enough; when they fill the block there is no null behind them.
- `computeDllPath_right_iff`: the path is right, or a failure leaves no block, except for these.
-/

namespace Ldk.Loader

open OutputBuffer Environment Allocations Joined

/-! ## What the flags prescribe -/

/-- The parts of the search path, in order. -/
def prescribed (dwFlags searchFlags : UInt32) : List Part :=
  if dwFlags &&& alteredSearchPath ≠ 0 then [.load, .image, .environment]
  else if searchFlags ≠ 0 then
    (if searchFlags &&& searchDllLoadDir ≠ 0 then [.load] else []) ++
      if searchFlags &&& searchDefaultDirs ≠ 0 then [.image, .user, .system]
      else
        (if searchFlags &&& searchApplicationDir ≠ 0 then [.image] else []) ++
          (if searchFlags &&& (searchSystem32 ||| searchSystem32NoForwarder) ≠ 0 then [.system]
            else []) ++
          if searchFlags &&& searchUserDirs ≠ 0 then [.user] else []
  else [.image, .environment]

/-- What a path is computed for. -/
structure Request where
  paths : Paths
  /-- The current value of `PATH`. -/
  path : Option (List WCHAR)
  lpLibFileName : List WCHAR
  dwFlags : UInt32
  path_noNull : ∀ text ∈ path, 0 ∉ text
  name_noNull : 0 ∉ lpLibFileName

namespace Request

variable (r : Request)

/-- The parts of its search path. -/
def parts : List Part :=
  prescribed r.dwFlags (searchFlags r.dwFlags r.paths.defaultDllDirectories)

/-- The directories of a part. -/
def directories : Part → List (List WCHAR)
  | .load => [loadDirectory r.lpLibFileName]
  | .image => [imageDirectory r.paths.imagePathName]
  | .system => [r.paths.dllPath]
  | .environment => [r.path.getD []]
  | .user => r.paths.userDirectories

/-- The list of the directories that are not empty. -/
def searchPath : List WCHAR :=
  [semicolon].intercalate ((r.parts.flatMap r.directories).filter fun s => !s.isEmpty)

/-- Whatever the heap does, the code ends: with the list and its null in a block that is new, or
with a status and no new block. -/
def Right (query : Query) : Prop :=
  ∀ succeeds h, ∃ enough, ∀ rounds, enough ≤ rounds →
    Command.Returns (computeDllPath succeeds query r.paths r.lpLibFileName r.dwFlags rounds) h
      fun result h' =>
        Outcome (fun s => OutputBuffer.Holds s.buffer (r.searchPath ++ [0])) True result ∧
          h'.live = addedBy HeapString.blocks result ++ h.live

/-! ## The condition -/

/-- What the code has of a part. -/
def kept : Part → List WCHAR
  | .load => shortened (loadDirectory r.lpLibFileName)
  | .image => imageDirectory r.paths.imagePathName
  | .system => r.paths.dllPath
  | .environment => keptValue r.path
  | .user => joined semicolon r.paths.userDirectories

/-- The parts of a path with their signs. -/
def used : Nat := (joined semicolon (r.parts.map r.kept)).length

/-- The size of the block for the path. -/
def room : Nat :=
  charCount ((r.kept .load).length + (r.kept .image).length + (r.kept .system).length +
    (r.kept .environment).length + (r.kept .user).length + 5 + 1)

/-- A part whose length is kept. -/
def Exact : Part → Prop
  | .load => (loadDirectory r.lpLibFileName).length < 2 ^ 15
  | .environment => (r.path.getD []).length < maxUShort / 2 - 2
  | _ => True

/-- The condition on what the path is computed for. -/
structure Safe : Prop where
  name : (loadDirectory r.lpLibFileName).length % 2 ^ 15 ≠ 2 ^ 15 - 1
  image : (imageDirectory r.paths.imagePathName).length ≠ 2 ^ 15 - 1
  ends : (r.path.getD []).length % 2 ^ 15 < maxUShort / 2 - 1
  /-- The directories of the user or the whole path are refused, or there is room for a null and
  the parts are exact. -/
  size : TooLong r.paths.userDirectories ∨ r.room < r.used ∨
    r.used < r.room ∧ ∀ part ∈ r.parts, r.Exact part

end Request

/-! ## The elements -/

theorem appendAll_append (s : HeapString) (as bs : List (List WCHAR)) :
    appendAll s (as ++ bs) = appendAll s as >>= fun s => appendAll s bs := by
  induction as generalizing s with
  | nil => rfl
  | cons a as ih =>
    show (appendDllPathElement s a >>= fun s => appendAll s (as ++ bs)) =
      (appendDllPathElement s a >>= fun s => appendAll s as) >>= fun s => appendAll s bs
    cases appendDllPathElement s a with
    | error e => rfl
    | ok s => exact ih s

theorem appendAll_cons (s : HeapString) (element next : List WCHAR) (rest : List (List WCHAR)) :
    appendAll s (element :: next :: rest) =
      appendDllPathElement s element >>= fun s => appendAll s (next :: rest) := rfl

theorem appendAll_singleton (s : HeapString) (element : List WCHAR) :
    appendAll s [element] = appendDllPathElement s element := by
  show (appendDllPathElement s element >>= fun s => appendAll s []) = _
  cases appendDllPathElement s element with
  | error e => rfl
  | ok s => rfl

theorem appendIf_eq (flag : Prop) [Decidable flag] (s : HeapString) (element : Part → List WCHAR)
    (part : Part) :
    appendIf flag s (element part) = appendAll s ((if flag then [part] else []).map element) := by
  unfold appendIf
  split
  · exact (appendAll_singleton s _).symm
  · rfl

/-- The elements are appended in the order that is prescribed. -/
theorem appendDirectories_eq (dwFlags searchFlags : UInt32) (element : Part → List WCHAR)
    (s : HeapString) :
    appendDirectories dwFlags searchFlags element s =
      appendAll s ((prescribed dwFlags searchFlags).map element) := by
  unfold appendDirectories prescribed
  by_cases haltered : dwFlags &&& alteredSearchPath ≠ 0
  · rw [if_pos haltered, if_pos haltered]
    simp only [List.map_cons, List.map_nil, appendAll_cons, appendAll_singleton]
  · rw [if_neg haltered, if_neg haltered]
    by_cases hsearch : searchFlags ≠ 0
    · rw [if_pos hsearch, if_pos hsearch, List.map_append, appendAll_append, ← appendIf_eq]
      by_cases hdefault : searchFlags &&& searchDefaultDirs ≠ 0
      · simp only [if_pos hdefault, List.map_cons, List.map_nil, appendAll_cons,
          appendAll_singleton]
      · simp only [if_neg hdefault, List.map_append, appendAll_append, ← appendIf_eq, bind_assoc]
    · rw [if_neg hsearch, if_neg hsearch]
      simp only [List.map_cons, List.map_nil, appendAll_cons, appendAll_singleton]

/-! ## The path -/

section

variable {r : Request} {succeeds : Nat → Bool}

/-- The reason for a status may be a weaker one. -/
theorem Outcome.error {α β : Type} {P : α → Prop} {Q : β → Prop} {reason weaker : Prop} {e : Stop}
    (h : Outcome P reason (.error e)) (hle : reason → weaker) : Outcome Q weaker (.error e) := by
  cases e with
  | status s => exact hle h
  | outside w => exact h

theorem Outcome.elim {α : Type} {P : α → Prop} {reason : Prop} {e : Stop}
    (h : Outcome P reason (.error e)) (hnot : ¬ reason) : False := by
  cases e with
  | status s => exact hnot h
  | outside w => exact h

theorem Request.imagePathName_lt (r : Request) : r.paths.imagePathName.length < 2 ^ 15 :=
  (r.paths.counted _ List.mem_cons_self).1

theorem duplicateDirectoryFromPath_adds {name : List WCHAR}
    (hname : (loadDirectory name).length % 2 ^ 15 ≠ 2 ^ 15 - 1) :
    Adds HeapString.blocks (duplicateDirectoryFromPath succeeds name)
      (Outcome (HeapString.Is (shortened (loadDirectory name))) (Refuses succeeds)) := by
  obtain ⟨length, hle, hlength, htext, heq⟩ := duplicateDirectoryFromPath_eq succeeds name
  rw [heq, ← htext]
  apply duplicate_adds hle
  · omega
  · omega

theorem duplicateImageDirectory_adds {path : List WCHAR} (hpath : path.length < 2 ^ 15)
    (himage : (imageDirectory path).length ≠ 2 ^ 15 - 1) :
    Adds HeapString.blocks (duplicateImageDirectory succeeds path)
      (Outcome (HeapString.Is (imageDirectory path)) (Refuses succeeds)) := by
  have hle := imageDirectoryLength_le path
  rw [imageDirectory_eq, List.length_take_of_le hle] at himage
  rw [imageDirectory_eq]
  apply duplicate_adds hle
  · omega
  · omega

/-- The four parts are copied, and then their elements are put into the path. -/
theorem computeDllPath_adds (rounds : Nat)
    (hname : (loadDirectory r.lpLibFileName).length % 2 ^ 15 ≠ 2 ^ 15 - 1)
    (himage : (imageDirectory r.paths.imagePathName).length ≠ 2 ^ 15 - 1)
    (hends : ∀ text ∈ r.path, text.length % 2 ^ 15 < maxUShort / 2 - 1) :
    Adds HeapString.blocks
      (computeDllPath succeeds (foundValue r.path).answer r.paths r.lpLibFileName r.dwFlags
        (rounds + 2))
      (Outcome
        (fun s => ¬ TooLong r.paths.userDirectories ∧
          ∃ block, Filled block r.room (joined semicolon (r.parts.map r.kept)) s)
        (Refuses succeeds ∨ TooLong r.paths.userDirectories ∨ r.room < r.used)) := by
  apply (duplicateDirectoryFromPath_adds hname).within
  · intro load hload
    apply (duplicateImageDirectory_adds r.imagePathName_lt himage).within
    · intro image himage
      apply (duplicateEnvironmentPath_adds r.path rounds hends).within
      · intro environment henvironment
        apply (duplicateUserDllDirectories_adds r.paths.userDirectories).within
        · rintro user ⟨hlong, huser⟩
          have hkept : elements r.paths load image environment user = r.kept := by
            funext part
            cases part with
            | load => exact hload.chars
            | image => exact himage.chars
            | system => rfl
            | environment => exact henvironment.chars
            | user => exact huser.chars
          have hroom : charCount (load.length + image.length + r.paths.dllPath.length +
              environment.length + user.length + 5 + 1) = r.room := by
            rw [hload.length, himage.length, henvironment.length, huser.length]
            rfl
          rw [hkept, hroom]
          apply Adds.allocate_bind
          · exact fun n hn => .inl ⟨n, hn⟩
          · intro block
            have happends := appendAll_zeroed (some block) r.room (r.parts.map r.kept)
            rw [Request.parts, ← appendDirectories_eq] at happends
            apply fill_turns happends
            · exact fun s hs => ⟨hlong, _, hs⟩
            · exact fun hlt => .inr (.inr hlt)
        · exact fun e he => Outcome.error he fun h => h.imp_right .inl
      · exact fun e he => Outcome.error he .inl
    · exact fun e he => Outcome.error he .inl
  · exact fun e he => Outcome.error he .inl

/-- A run whose heap grants every request, and whose outcome is not right. -/
theorem Request.not_right {query : Query} (h : ∀ rounds h, Command.Ensures
    (computeDllPath (fun _ => true) query r.paths r.lpLibFileName r.dwFlags (rounds + 2)) h
      fun result _ =>
        ¬ Outcome (fun s => OutputBuffer.Holds s.buffer (r.searchPath ++ [0])) True result) :
    ¬ r.Right query := by
  intro hright
  let start : Allocations := ⟨0, [], nofun, List.nodup_nil⟩
  obtain ⟨enough, hrounds⟩ := hright (fun _ => true) start
  obtain ⟨result, h', hrun, hresult, -⟩ := hrounds (enough + 2) (Nat.le_add_right _ _)
  exact h enough start result h' hrun hresult

theorem not_refuses : ¬ Refuses fun _ => true := by
  rintro ⟨n, hn⟩
  cases hn

/-- A copy without room is written outside its block. -/
theorem Request.not_right_of_name {query : Query}
    (hname : (loadDirectory r.lpLibFileName).length % 2 ^ 15 = 2 ^ 15 - 1) :
    ¬ r.Right query := by
  apply r.not_right
  intro rounds h
  obtain ⟨length, hle, hlength, -, heq⟩ := duplicateDirectoryFromPath_eq (fun _ => true)
    r.lpLibFileName
  refine within_ensures (R := fun result => ∃ w, result = .error (.outside w)) ?_ ?_ ?_
  · rw [heq]
    exact duplicate_outside hle (by omega) h
  · rintro a _ ⟨w, hw⟩
    cases hw
  · rintro e ⟨w, hw⟩
    cases hw
    exact fun h => h

theorem Request.not_right_of_image {query : Query}
    (hname : (loadDirectory r.lpLibFileName).length % 2 ^ 15 ≠ 2 ^ 15 - 1)
    (himage : (imageDirectory r.paths.imagePathName).length = 2 ^ 15 - 1) :
    ¬ r.Right query := by
  apply r.not_right
  intro rounds h
  refine within_ensures ((duplicateDirectoryFromPath_adds hname h).ensures.mono fun _ _ h => h.1)
    ?_ ?_
  · intro load h' _
    have hle := imageDirectoryLength_le r.paths.imagePathName
    refine within_ensures (R := fun result => ∃ w, result = .error (.outside w)) ?_ ?_ ?_
    · rw [imageDirectory_eq, List.length_take_of_le hle] at himage
      exact duplicate_outside hle (by omega) h'
    · rintro a _ ⟨w, hw⟩
      cases hw
    · rintro e ⟨w, hw⟩
      cases hw
      exact fun h => h
  · exact fun e he => (he.elim not_refuses).elim

theorem duplicateEnvironmentPath_diverges {text : List WCHAR} (rounds : Nat)
    (hends : maxUShort / 2 - 1 ≤ (shortened text).length) (h : Allocations) :
    duplicateEnvironmentPath (fun _ => true) (Found.block text).answer rounds h = none := by
  have hsmall : (shortened text).length < 2 ^ 15 := by
    rw [length_shortened_eq]
    exact Nat.mod_lt _ (by decide)
  have hsize : (zeroed 4096).length ≤ 4096 := Nat.le_of_eq (length_zeroed _)
  exact queryPath_diverges hends hsmall rounds h.requests hsize h.grant

/-- The query for a value that is never delivered does not return. -/
theorem Request.not_right_of_path {text : List WCHAR}
    (hname : (loadDirectory r.lpLibFileName).length % 2 ^ 15 ≠ 2 ^ 15 - 1)
    (himage : (imageDirectory r.paths.imagePathName).length ≠ 2 ^ 15 - 1)
    (hpath : r.path = some text) (hends : maxUShort / 2 - 1 ≤ text.length % 2 ^ 15) :
    ¬ r.Right (foundValue r.path).answer := by
  apply r.not_right
  intro rounds h
  rw [← length_shortened_eq] at hends
  refine within_ensures ((duplicateDirectoryFromPath_adds hname h).ensures.mono fun _ _ h => h.1)
    ?_ fun e he => (he.elim not_refuses).elim
  intro load h' _
  refine within_ensures ((duplicateImageDirectory_adds r.imagePathName_lt himage h').ensures.mono
    fun _ _ h => h.1) ?_ fun e he => (he.elim not_refuses).elim
  intro image h'' _
  refine within_ensures (R := fun _ => False) ?_ (fun _ _ ha => ha.elim) fun _ he => he.elim
  intro result _ hrun
  rw [hpath] at hrun
  cases (duplicateEnvironmentPath_diverges (rounds + 2) hends h'').symm.trans hrun

/-! ## The list of the directories -/

/-- The text of a part. -/
def Request.text (r : Request) (part : Part) : List WCHAR := joined semicolon (r.directories part)

theorem Request.searchPath_eq (r : Request) :
    r.searchPath = joined semicolon (r.parts.map r.text) := by
  unfold Request.searchPath
  rw [← joined_eq_intercalate, List.flatMap_def, ← joined_flatten, List.map_map]
  rfl

theorem Request.text_noNull (r : Request) (part : Part) : 0 ∉ r.text part := by
  intro hmem
  rcases mem_joined hmem with hsign | ⟨directory, hdirectory, hnull⟩
  · cases hsign
  · cases part with
    | load =>
      obtain rfl := List.mem_singleton.1 hdirectory
      exact r.name_noNull (mem_of_mem_loadDirectory hnull)
    | image =>
      obtain rfl := List.mem_singleton.1 hdirectory
      rw [imageDirectory_eq] at hnull
      exact (r.paths.counted _ List.mem_cons_self).2 (List.mem_of_mem_take hnull)
    | system =>
      obtain rfl := List.mem_singleton.1 hdirectory
      exact (r.paths.counted _ (List.mem_cons_of_mem _ List.mem_cons_self)).2 hnull
    | environment =>
      obtain rfl := List.mem_singleton.1 hdirectory
      cases hpath : r.path with
      | none =>
        rw [hpath] at hnull
        cases hnull
      | some text =>
        rw [hpath] at hnull
        exact r.path_noNull text hpath hnull
    | user =>
      exact (r.paths.counted _ (List.mem_cons_of_mem _ (List.mem_cons_of_mem _ hdirectory))).2 hnull

theorem Request.searchPath_noNull (r : Request) : 0 ∉ r.searchPath := by
  rw [r.searchPath_eq]
  intro hmem
  rcases mem_joined hmem with hsign | ⟨text, htext, hnull⟩
  · cases hsign
  · obtain ⟨part, -, rfl⟩ := List.mem_map.1 htext
    exact r.text_noNull part hnull

/-- An exact part is kept. -/
theorem Request.Exact.kept {part : Part} (h : r.Exact part) : r.kept part = r.text part := by
  cases part with
  | load =>
    have hsmall : (loadDirectory r.lpLibFileName).length < 2 ^ 15 := h
    exact (shortened_eq (by omega)).trans (joined_singleton _).symm
  | image => exact (joined_singleton _).symm
  | system => exact (joined_singleton _).symm
  | environment =>
    have hsmall : (r.path.getD []).length < maxUShort / 2 - 2 := h
    unfold maxUShort at hsmall
    show keptValue r.path = joined semicolon [r.path.getD []]
    rw [joined_singleton]
    cases hpath : r.path with
    | none => rfl
    | some text =>
      rw [hpath, Option.getD_some] at hsmall
      unfold keptValue maxUShort
      dsimp only
      rw [shortened_eq (by omega), if_neg (by omega)]
      rfl
  | user => rfl

/-- What is kept of a part has no more characters. -/
theorem Request.kept_le (r : Request) (part : Part) :
    (r.kept part).countP (fun ch => ch != 0) ≤ (r.text part).length ∧
      (r.text part = [] → r.kept part = []) := by
  have hlength (text : List WCHAR) : text.countP (fun ch => ch != 0) ≤ text.length :=
    List.countP_le_length
  cases part with
  | load =>
    have htext : r.text .load = loadDirectory r.lpLibFileName := joined_singleton _
    have hkept : r.kept .load = shortened (loadDirectory r.lpLibFileName) := rfl
    rw [htext, hkept]
    refine ⟨(hlength _).trans (List.length_take_le' _ _), fun hempty => ?_⟩
    rw [hempty]
    exact List.take_nil
  | image =>
    have htext : r.text .image = r.kept .image := joined_singleton _
    rw [htext]
    exact ⟨hlength _, fun h => h⟩
  | system =>
    have htext : r.text .system = r.kept .system := joined_singleton _
    rw [htext]
    exact ⟨hlength _, fun h => h⟩
  | environment =>
    have htext : r.text .environment = r.path.getD [] := joined_singleton _
    rw [htext]
    exact keptValue_count r.path
  | user => exact ⟨hlength _, fun h => h⟩

/-- It has all of them only of an exact part. -/
theorem Request.exact_of_count {part : Part}
    (hends : ∀ text ∈ r.path, text.length % 2 ^ 15 < maxUShort / 2 - 1)
    (h : (r.kept part).countP (fun ch => ch != 0) = (r.text part).length) : r.Exact part := by
  cases part with
  | load =>
    have htext : r.text .load = loadDirectory r.lpLibFileName := joined_singleton _
    have hle : (r.kept .load).countP (fun ch => ch != 0) ≤
        (shortened (loadDirectory r.lpLibFileName)).length := List.countP_le_length
    rw [length_shortened_eq] at hle
    rw [htext] at h
    show (loadDirectory r.lpLibFileName).length < 2 ^ 15
    omega
  | image => trivial
  | system => trivial
  | environment =>
    have htext : r.text .environment = r.path.getD [] := joined_singleton _
    rw [htext] at h
    change (keptValue r.path).countP _ = _ at h
    show (r.path.getD []).length < maxUShort / 2 - 2
    cases hpath : r.path with
    | none => decide
    | some text =>
      have hend := hends text hpath
      have hshort := length_shortened_eq text
      rw [hpath, Option.getD_some] at h
      rw [Option.getD_some]
      unfold keptValue at h
      unfold maxUShort at h hend ⊢
      dsimp only at h
      split at h
      · rename_i hlast
        rw [List.countP_eq_zero.2 fun ch hch => by
          rw [List.eq_of_mem_replicate hch]
          decide] at h
        omega
      · have hle := (shortened text).countP_le_length (p := fun ch => ch != 0)
        omega
  | user => trivial

/-! ## When the path is right -/

/-- The path is the list of the directories exactly when the parts of it are exact and there is
room for a null. -/
theorem Request.holds_iff {s : HeapString} {block : Option Nat}
    (hends : ∀ text ∈ r.path, text.length % 2 ^ 15 < maxUShort / 2 - 1)
    (hs : Filled block r.room (joined semicolon (r.parts.map r.kept)) s) :
    OutputBuffer.Holds s.buffer (r.searchPath ++ [0]) ↔
      r.used < r.room ∧ ∀ part ∈ r.parts, r.Exact part := by
  have hsame (hexact : ∀ part ∈ r.parts, r.Exact part) :
      joined semicolon (r.parts.map r.kept) = r.searchPath := by
    rw [r.searchPath_eq, List.map_congr_left fun part hpart => (hexact part hpart).kept]
  constructor
  · intro hholds
    have hsize := hholds.length_le
    rw [hs.buffer, length_filled hs.room, List.length_append, List.length_singleton] at hsize
    -- the characters before the first null
    have htext : s.buffer.takeWhile (fun ch => ch != 0) = r.searchPath := by
      apply hholds.takeWhile
      · intro ch hch
        rw [bne_iff_ne]
        rintro rfl
        exact r.searchPath_noNull hch
      · rfl
    have hcount : r.searchPath.length ≤
        (joined semicolon (r.parts.map r.kept)).countP fun ch => ch != 0 := by
      have hall : r.searchPath.countP (fun ch => ch != 0) = r.searchPath.length := by
        rw [List.countP_eq_length]
        intro ch hch
        rw [bne_iff_ne]
        rintro rfl
        exact r.searchPath_noNull hch
      have hsub : r.searchPath.Sublist s.buffer := htext ▸ List.takeWhile_sublist _
      have hle := hsub.countP_le (p := fun ch => ch != 0)
      have hzeros : (zeroed (r.room - (joined semicolon (r.parts.map r.kept)).length)).countP
          (fun ch => ch != 0) = 0 := by
        rw [List.countP_eq_zero]
        intro ch hch
        rw [List.eq_of_mem_replicate hch]
        decide
      rw [hall, hs.buffer] at hle
      unfold filled at hle
      rwa [List.countP_append, hzeros] at hle
    rw [r.searchPath_eq] at hcount
    have hparts := @joined_countP_le _ _ semicolon (fun ch : WCHAR => ch != 0) r.kept r.text r.parts
      fun part _ => r.kept_le part
    obtain ⟨-, -, hall⟩ := hparts
    have hexact : ∀ part ∈ r.parts, r.Exact part := fun part hpart =>
      r.exact_of_count hends (hall hcount part hpart)
    refine ⟨?_, hexact⟩
    unfold Request.used
    rw [hsame hexact]
    exact hsize
  · rintro ⟨hlt, hexact⟩
    rw [← hsame hexact]
    exact hs.holds hlt

theorem Request.right_iff (r : Request) : r.Right (foundValue r.path).answer ↔ r.Safe := by
  constructor
  · intro hright
    have hname : (loadDirectory r.lpLibFileName).length % 2 ^ 15 ≠ 2 ^ 15 - 1 := fun h =>
      r.not_right_of_name h hright
    have himage : (imageDirectory r.paths.imagePathName).length ≠ 2 ^ 15 - 1 := fun h =>
      r.not_right_of_image hname h hright
    have hends : ∀ text ∈ r.path, text.length % 2 ^ 15 < maxUShort / 2 - 1 := by
      intro text htext
      by_contra hlong
      exact r.not_right_of_path hname himage htext (Nat.le_of_not_lt hlong) hright
    refine ⟨hname, himage, ?_, ?_⟩
    · cases hpath : r.path with
      | none => decide
      | some text => exact hends text hpath
    · by_contra hsize
      rw [not_or, not_or] at hsize
      obtain ⟨hshort, hroom, hfits⟩ := hsize
      apply r.not_right _ hright
      intro rounds h
      refine (computeDllPath_adds rounds hname himage hends h).ensures.mono ?_
      rintro result _ ⟨hresult, -⟩ hcorrect
      cases result with
      | ok s =>
        obtain ⟨-, block, hfilled⟩ := hresult
        exact hfits ((r.holds_iff hends hfilled).1 hcorrect)
      | error e =>
        apply hresult.elim
        rintro (hrefuses | hlong | hlt)
        · exact not_refuses hrefuses
        · exact hshort hlong
        · exact hroom hlt
  · intro hsafe succeeds h
    have hends : ∀ text ∈ r.path, text.length % 2 ^ 15 < maxUShort / 2 - 1 := by
      intro text htext
      have hpath := hsafe.ends
      rwa [htext] at hpath
    refine ⟨2, fun rounds hrounds => ?_⟩
    obtain ⟨more, rfl⟩ := Nat.exists_eq_add_of_le' hrounds
    apply (computeDllPath_adds more hsafe.name hsafe.image hends h).mono
    rintro result h' ⟨hresult, hlive⟩
    refine ⟨?_, hlive⟩
    cases result with
    | ok s =>
      obtain ⟨hshort, block, hfilled⟩ := hresult
      rcases hsafe.size with hlong | hlt | hfits
      · exact absurd hlong hshort
      · exact absurd hfilled.room (Nat.not_le_of_lt hlt)
      · exact (r.holds_iff hends hfilled).2 hfits
    | error e => exact Outcome.error hresult fun _ => trivial

end

/-! ## The process -/

/-- `L"PATH"` -/
def pathVariable : List WCHAR := [0x50, 0x41, 0x54, 0x48]

variable {π : Type}

theorem zero_notMem_string (p : List WCHAR) : 0 ∉ p.take (wcslen p) := by
  induction p with
  | nil => exact List.not_mem_nil
  | cons ch p ih =>
    by_cases hch : ch = 0
    · subst hch
      exact List.not_mem_nil
    · rw [wcslen_cons hch, List.take_succ_cons, List.mem_cons, not_or]
      exact ⟨Ne.symm hch, ih⟩

theorem zero_notMem_strings {block : List WCHAR} {rounds scan : Nat} {t : List WCHAR}
    (h : t ∈ strings block rounds scan) : 0 ∉ t := by
  induction rounds generalizing scan with
  | zero => cases h
  | succ rounds ih =>
    unfold strings at h
    dsimp only at h
    split at h
    · cases h
    · rcases List.mem_cons.1 h with rfl | hrest
      · exact zero_notMem_string _
      · exact ih hrest

/-- No pseudo variable has the name. -/
theorem pseudoValue_path (upcase : WCHAR → WCHAR) (s : Environment.State π) :
    s.pseudoValue upcase pathVariable = none := by
  have hother {name : List WCHAR} (hname : name.length ≠ 4) :
      ¬ rtlEqualUnicodeString upcase pathVariable name true = true := by
    intro hequal
    have hmap : pathVariable.map upcase = name.map upcase := eq_of_beq hequal
    have hlength := congrArg List.length hmap
    rw [List.length_map, List.length_map] at hlength
    exact hname hlength.symm
  unfold Environment.State.pseudoValue
  rw [if_neg (hother (by decide)), if_neg (hother (by decide))]

/-- The value of `PATH` is a string of the block. -/
theorem found_path (upcase : WCHAR → WCHAR) (s : Environment.State π) :
    s.found upcase pathVariable = foundValue (s.valueOf upcase none pathVariable) := by
  have hempty : s.isEmpty none = false := rfl
  unfold Environment.State.found Environment.State.valueOf
  rw [pseudoValue_path, hempty]
  cases s.scanned upcase none pathVariable with
  | none => rfl
  | some text => rfl

theorem path_noNull (upcase : WCHAR → WCHAR) (s : Environment.State π) :
    ∀ text ∈ s.valueOf upcase none pathVariable, 0 ∉ text := by
  intro text htext
  unfold Environment.State.valueOf at htext
  rw [pseudoValue_path, ite_self] at htext
  cases hscanned : s.scanned upcase none pathVariable with
  | none =>
    rw [hscanned] at htext
    cases htext
  | some value =>
    rw [hscanned] at htext
    obtain rfl := Option.some.inj htext
    unfold Environment.State.scanned scanBlock at hscanned
    obtain ⟨t, ht, hvalue⟩ := List.exists_of_findSome?_eq_some hscanned
    unfold entryValue at hvalue
    split at hvalue
    · obtain rfl := Option.some.inj hvalue
      exact fun hmem => zero_notMem_strings ht (List.mem_of_mem_drop hmem)
    · cases hvalue

/-- What the path is computed for in a state of the environment. -/
def requestOf (upcase : WCHAR → WCHAR) (s : Environment.State π) (paths : Paths)
    (lpLibFileName : List WCHAR) (hname : 0 ∉ lpLibFileName) (dwFlags : UInt32) : Request where
  paths := paths
  path := s.valueOf upcase none pathVariable
  lpLibFileName := lpLibFileName
  dwFlags := dwFlags
  path_noNull := path_noNull upcase s
  name_noNull := hname

/-- With a coherent cache, `LdkpComputeDllPath` returns the list of the directories, or fails
without a trace, exactly for the requests that are safe. -/
theorem dll_path_is_right [DecidableEq π] {upcase : WCHAR → WCHAR} {s : Environment.State π}
    (hcoherent : Coherent upcase s) (paths : Paths) (lpLibFileName : List WCHAR)
    (hname : 0 ∉ lpLibFileName) (dwFlags : UInt32) :
    let query : Query := fun m => (s.rtlQueryEnvironmentVariable upcase none pathVariable m).2
    let r := requestOf upcase s paths lpLibFileName hname dwFlags
    r.Right query ↔ r.Safe := by
  intro query r
  have hquery : query = (foundValue r.path).answer := by
    have hfound : foundValue r.path = s.found upcase pathVariable := (found_path upcase s).symm
    rw [hfound]
    exact funext (hcoherent.found_answer pathVariable)
  rw [hquery]
  exact r.right_iff

/-- A process with `PATH=p`. -/
def onePath : Environment.State Unit where
  block
    | .process => some (pathVariable ++ [equalsSign, 0x70, 0, 0])
    | .caller _ => none
  environmentSize := 16
  cache := none
  dosPath := [0x43, 0x3a, 0x5c]
  imagePathName := []
  edited _ := false

/-- The image is `C:\d\i`, and there are no directories of the user. -/
def onePaths : Paths where
  imagePathName := [0x43, 0x3a, 0x5c, 0x64, 0x5c, 0x69]
  dllPath := []
  dllDirectory := []
  dllDirectoryList := []
  defaultDllDirectories := 0
  counted := by decide

/-- The directory of the image comes before `PATH`. -/
theorem image_directory_and_path :
    let r := requestOf upcaseAscii onePath onePaths [0x6c] (by decide) 0
    r.Right (fun m => (onePath.rtlQueryEnvironmentVariable upcaseAscii none pathVariable m).2) ∧
      r.searchPath = [0x43, 0x3a, 0x5c, 0x64, semicolon, 0x70] := by
  have hcoherent : Coherent upcaseAscii onePath := fun _ h => nomatch h
  refine ⟨(dll_path_is_right hcoherent onePaths [0x6c] (by decide) 0).2 ?_, by decide⟩
  refine ⟨by decide, by decide, by decide, .inr (.inr ⟨by decide, ?_⟩)⟩
  have hparts : (requestOf upcaseAscii onePath onePaths [0x6c] (by decide) 0).parts =
      [.image, .environment] := by decide
  rw [hparts]
  rintro part hpart
  rcases List.mem_cons.1 hpart with rfl | hrest
  · trivial
  · obtain rfl := List.mem_singleton.1 hrest
    show _ < _
    decide

/-- A name with so many characters before its only separator. -/
def longName (n : Nat) : List WCHAR := List.replicate n 0x61 ++ [0x5c] ++ [0x62]

theorem loadDirectory_longName {n : Nat} (hn : n ≠ 2) :
    loadDirectory (longName n) = List.replicate n 0x61 := by
  have hfront : beforeLast isPathSeparator (longName n) = some (List.replicate n 0x61) := by
    unfold longName
    rw [beforeLast_concat, if_neg (by decide), beforeLast_concat, if_pos (by decide)]
  unfold loadDirectory
  rw [hfront]
  dsimp only
  rw [if_neg]
  rw [List.length_replicate]
  exact fun h => hn h.1

theorem longName_noNull (n : Nat) : 0 ∉ longName n := by
  intro hmem
  rcases List.mem_append.1 hmem with hmem | hlast
  · rcases List.mem_append.1 hmem with hfirst | hseparator
    · cases List.eq_of_mem_replicate hfirst
    · cases List.mem_singleton.1 hseparator
  · cases List.mem_singleton.1 hlast

/-- The directory of 32767 characters is copied to a block of no size. -/
theorem long_directory_is_written_outside :
    ¬ (requestOf upcaseAscii onePath onePaths (longName 32767) (longName_noNull _) 0).Right
      fun m => (onePath.rtlQueryEnvironmentVariable upcaseAscii none pathVariable m).2 := by
  apply Request.not_right_of_name
  have hdirectory := loadDirectory_longName (n := 32767) (by decide)
  have hname : (requestOf upcaseAscii onePath onePaths (longName 32767) (longName_noNull _)
      0).lpLibFileName = longName 32767 := rfl
  have hlength : (List.replicate 32767 (0x61 : WCHAR)).length = 32767 := List.length_replicate
  rw [hname, hdirectory]
  omega

end Ldk.Loader
