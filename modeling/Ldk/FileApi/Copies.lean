import Ldk.FileApi.CopyFile

/-!
# What a copy comes to

A copy that reports success has copied every byte, and it reports success exactly when no call
has failed and the progress routine has not asked to stop (`copies_are_exact`).

- The converse, that a destination with the bytes of the source means success, does not hold: a
  copy that fails may leave such a destination behind, for one when the source is empty.
- `CopyFileW` does the same as `CopyFile2` with a progress routine that never asks to stop.
-/

namespace Ldk.FileApi

/-! ## Error codes -/

/-- A call that fails leaves an error code. -/
structure System.ReportsErrors (sys : System) : Prop where
  getFileAttributes : ∀ name error, sys.getFileAttributes name = .error error → error ≠ 0
  openExisting : ∀ name forWrite error, sys.openExisting name forWrite = .error error → error ≠ 0
  create : ∀ name failIfExists error, sys.create name failIfExists = .error error → error ≠ 0
  read : ∀ n error, sys.read n = .error error → error ≠ 0
  write : ∀ n error, (sys.write n).error = some error → error ≠ 0

theorem failedHresult_hresultFromWin32 {error : BitVec 32} (h : error ≠ 0) :
    failedHresult (hresultFromWin32 error) := by
  unfold failedHresult hresultFromWin32
  split_ifs with hle
  · rw [BitVec.slt_eq_sle_and_ne, Bool.and_eq_true]
    exact ⟨hle, bne_iff_ne.mpr h⟩
  · rw [show (0 : BitVec 32) = 0#32 from rfl, BitVec.slt_zero_eq_msb, BitVec.msb_or,
      show (0x80000000#32).msb = true by decide, Bool.or_true]

theorem ne_zero_of_failedHresult {result : BitVec 32} (h : failedHresult result) : result ≠ 0 := by
  rintro rfl
  exact absurd h (by decide)

@[simp] theorem failedHresult_zero : failedHresult 0 = false := rfl

/-! ## What the progress routine has answered -/

section Answers

variable (routine : ProgressRoutine)

/-- The routine has answered every message with `COPYFILE2_PROGRESS_CONTINUE`. -/
def AllContinue : List Message → Prop
  | [] => True
  | message :: earlier => routine earlier message = .continue ∧ AllContinue earlier

/-- The routine has not asked to pause, to cancel or to stop, and it has been left alone once it
wanted to be. -/
def Accepted : List Message → Prop
  | [] => True
  | message :: earlier =>
    (routine earlier message = .continue ∨ routine earlier message = .quiet) ∧
      AllContinue routine earlier

/-- Every message but the last has been answered with `COPYFILE2_PROGRESS_CONTINUE`. -/
def Attentive (sent : List Message) : Prop := AllContinue routine sent.tail

variable {routine}

theorem AllContinue.accepted {sent : List Message} (h : AllContinue routine sent) :
    Accepted routine sent := by
  cases sent with
  | nil => trivial
  | cons message earlier => exact ⟨Or.inl h.1, h.2⟩

theorem Accepted.attentive {sent : List Message} (h : Accepted routine sent) :
    Attentive routine sent := by
  cases sent with
  | nil => trivial
  | cons message earlier => exact h.2

theorem AllContinue.of_append {earlier later : List Message}
    (h : AllContinue routine (later ++ earlier)) : AllContinue routine earlier := by
  induction later with
  | nil => exact h
  | cons _ later ih => exact ih h.2

/-- After any other answer the routine is sent nothing. -/
theorem Attentive.last {earlier later : List Message} {message : Message}
    (h : Attentive routine (later ++ message :: earlier))
    (hanswer : routine earlier message ≠ .continue) : later = [] := by
  cases later with
  | nil => rfl
  | cons last later =>
    have hall : AllContinue routine (later ++ message :: earlier) := h
    exact absurd hall.of_append.1 hanswer

end Answers

/-! ## The messages of a copy -/

/-- The messages from a chunk on: `sizes` are the sizes of the chunks to come, `chunkNumber`
chunks with `bytesTransferred` bytes have been copied. -/
def chunkScript (total : Nat) : List Nat → Nat → Nat → List Message
  | [], _, bytesTransferred =>
    [.pollContinue, .streamFinished total bytesTransferred total bytesTransferred]
  | size :: sizes, chunkNumber, bytesTransferred =>
    .pollContinue :: .chunkStarted (chunkNumber + 1) size total total ::
      .chunkFinished (chunkNumber + 1) size total (bytesTransferred + size) total
        (bytesTransferred + size) ::
      chunkScript total sizes (chunkNumber + 1) (bytesTransferred + size)

/-- The messages of a copy that is not stopped. -/
def script (total : Nat) (sizes : List Nat) : List Message :=
  .streamStarted total total :: chunkScript total sizes 0 0

section Telling

variable {progressRoutine : Option ProgressRoutine}

/-- When a progress routine is to be told nothing more, what it has been sent is the beginning of
the messages that were due. -/
structure Ended (progressRoutine : Option ProgressRoutine) (w : World) (due : List Message) :
    Prop where
  begins : w.sent.reverse <+: due
  attentive : ∀ routine, progressRoutine = some routine → Attentive routine w.sent

/-- In the course of the copy, `due` are the messages so far. The progress routine has been sent
all of them, unless it wanted to be left alone. -/
structure Told (progressRoutine : Option ProgressRoutine) (w : World) (due : List Message) :
    Prop where
  begins : w.sent.reverse <+: due
  accepted : ∀ routine, progressRoutine = some routine → Accepted routine w.sent
  listening : ∀ routine, progressRoutine = some routine → w.quiet = false →
    w.sent.reverse = due ∧ AllContinue routine w.sent

/-- The progress routine has not asked to pause, to cancel or to stop. -/
def Unrefused (progressRoutine : Option ProgressRoutine) (sent : List Message) : Prop :=
  ∀ routine, progressRoutine = some routine → Accepted routine sent

variable {w w' : World} {due : List Message}

theorem Told.ended (h : Told progressRoutine w due) (more : List Message) :
    Ended progressRoutine w (due ++ more) where
  begins := h.begins.trans (List.prefix_append due more)
  attentive routine hroutine := (h.accepted routine hroutine).attentive

theorem Told.of_sent (h : Told progressRoutine w due) (hsent : w'.sent = w.sent)
    (hquiet : w'.quiet = w.quiet) : Told progressRoutine w' due where
  begins := by
    rw [hsent]
    exact h.begins
  accepted := by
    rw [hsent]
    exact h.accepted
  listening := by
    rw [hsent, hquiet]
    exact h.listening

/-- What is left alone by a call of the progress routine. -/
structure SameFiles (w w' : World) : Prop where
  destination : w'.destination = w.destination
  reads : w'.reads = w.reads
  log : w'.log = w.log

theorem invokeProgress_sameFiles (message : Message) (w : World) :
    SameFiles w (invokeProgress progressRoutine message w).2 := by
  unfold invokeProgress
  cases progressRoutine with
  | none => exact ⟨rfl, rfl, rfl⟩
  | some routine =>
    dsimp only
    split_ifs
    · exact ⟨rfl, rfl, rfl⟩
    · cases routine w.sent message <;> exact ⟨rfl, rfl, rfl⟩

/-- A message is taken note of, or it is the last one and the copy has failed. -/
theorem invokeProgress_spec (h : Told progressRoutine w due) (message : Message) :
    ((invokeProgress progressRoutine message w).1 = 0 ∧
      Told progressRoutine (invokeProgress progressRoutine message w).2 (due ++ [message])) ∨
    (failedHresult (invokeProgress progressRoutine message w).1 ∧
      ¬ Unrefused progressRoutine (invokeProgress progressRoutine message w).2.sent ∧
      Ended progressRoutine (invokeProgress progressRoutine message w).2 (due ++ [message])) := by
  have hbegins := h.begins.trans (List.prefix_append due [message])
  unfold invokeProgress
  cases progressRoutine with
  | none => exact Or.inl ⟨rfl, hbegins, (fun _ h => nomatch h), (fun _ h => nomatch h)⟩
  | some routine =>
    dsimp only
    cases hquiet : w.quiet with
    | true =>
      rw [if_pos rfl]
      refine Or.inl ⟨rfl, hbegins, h.accepted, fun _ _ hnot => ?_⟩
      rw [hquiet] at hnot
      cases hnot
    | false =>
      rw [if_neg Bool.false_ne_true]
      obtain ⟨hsent, hall⟩ := h.listening routine rfl hquiet
      -- the message is told behind those of before
      have hnow : (message :: w.sent).reverse = due ++ [message] := by
        rw [List.reverse_cons, hsent]
      -- an answer that does not go on ends the copy
      have hrefused : routine w.sent message ≠ .continue → routine w.sent message ≠ .quiet →
          ¬ Unrefused (some routine) (message :: w.sent) ∧
            ∀ w' : World, w'.sent = message :: w.sent →
              Ended (some routine) w' (due ++ [message]) := by
        intro hcontinue hnotQuiet
        refine ⟨fun hunrefused => ?_, fun w' hw' => ⟨?_, ?_⟩⟩
        · rcases (hunrefused routine rfl).1 with hanswer | hanswer
          · exact hcontinue hanswer
          · exact hnotQuiet hanswer
        · rw [hw', hnow]
        · rintro _ ⟨⟩
          rw [hw']
          exact hall
      cases hanswer : routine w.sent message with
      | «continue» =>
        refine Or.inl ⟨rfl, ⟨by rw [hnow], ?_, ?_⟩⟩
        · rintro _ ⟨⟩
          exact ⟨Or.inl hanswer, hall⟩
        · rintro _ ⟨⟩ _
          exact ⟨hnow, hanswer, hall⟩
      | quiet =>
        refine Or.inl ⟨rfl, ⟨by rw [hnow], ?_, fun _ _ hnot => nomatch hnot⟩⟩
        rintro _ ⟨⟩
        exact ⟨Or.inr hanswer, hall⟩
      | pause =>
        obtain ⟨hnot, hended⟩ := hrefused (by simp [hanswer]) (by simp [hanswer])
        exact Or.inr ⟨failedHresult_hresultFromWin32 (by decide), hnot, hended _ rfl⟩
      | cancel | stop | other _ =>
        obtain ⟨hnot, hended⟩ := hrefused (by simp [hanswer]) (by simp [hanswer])
        exact Or.inr ⟨failedHresult_hresultFromWin32 (by decide), hnot, hended _ rfl⟩

end Telling

/-! ## The two loops -/

/-- A run of `CopyFile2` comes to the same as a run of `CopyFileW`, unless the progress routine
asks to stop: then it fails. -/
structure Matches (progressRoutine : Option ProgressRoutine) (run : BitVec 32 × World)
    (plain : Bool × World) : Prop where
  refused : ¬ Unrefused progressRoutine run.2.sent → failedHresult run.1
  result : Unrefused progressRoutine run.2.sent → (run.1 = 0 ↔ plain.1 = true)
  destination : Unrefused progressRoutine run.2.sent → run.2.destination = plain.2.destination

section Loops

variable {progressRoutine : Option ProgressRoutine}

theorem Ended.mono {w : World} {due more : List Message} (h : Ended progressRoutine w due)
    (hmore : due <+: more) : Ended progressRoutine w more where
  begins := h.begins.trans hmore
  attentive := h.attentive

theorem Matches.of_refused {run : BitVec 32 × World} (plain : Bool × World)
    (hfailed : failedHresult run.1) (hrefused : ¬ Unrefused progressRoutine run.2.sent) :
    Matches progressRoutine run plain where
  refused _ := hfailed
  result h := absurd h hrefused
  destination h := absurd h hrefused

theorem Matches.of_failed {run : BitVec 32 × World} {plain : Bool × World}
    (hfailed : failedHresult run.1) (hplain : plain.1 = false)
    (hdestination : run.2.destination = plain.2.destination) :
    Matches progressRoutine run plain where
  refused _ := hfailed
  result _ := iff_of_false (ne_zero_of_failedHresult hfailed) (by simp [hplain])
  destination _ := hdestination

theorem Matches.of_told {run : BitVec 32 × World} {plain : Bool × World} {due : List Message}
    (htold : Told progressRoutine run.2 due) (hrun : run.1 = 0) (hplain : plain.1 = true)
    (hdestination : run.2.destination = plain.2.destination) :
    Matches progressRoutine run plain where
  refused h := absurd htold.accepted h
  result _ := iff_of_true hrun hplain
  destination _ := hdestination

@[simp] theorem orExit_zero (w : World) (next : World → BitVec 32 × World) :
    orExit (0, w) next = next w := rfl

theorem orExit_of_failed {run : BitVec 32 × World} (h : failedHresult run.1)
    (next : World → BitVec 32 × World) : orExit run next = run := if_pos h

theorem orExit_of_zero {run : BitVec 32 × World} (h : run.1 = 0)
    (next : World → BitVec 32 × World) : orExit run next = next run.2 := by
  rw [orExit, h]
  rfl

theorem checkCancel_eq {cancel : Nat → Bool} (h : ∀ n, cancel n = false) (w : World) :
    checkCancel cancel w = (0, { w with checks := w.checks + 1 }) := by
  rw [checkCancel, h]
  rfl

end Loops

/-! ## The loop of CopyFileW -/

/-- A read that is not at the end of the file gives at least one byte. -/
def System.ReadsSome (sys : System) : Prop := ∀ n size, sys.read n = .ok size → 0 < size

/-- From the `n`-th read on, no read fails, and each write takes what it is given. -/
inductive Transfers (sys : System) : Nat → List UInt8 → Prop where
  | finished {n size : Nat} {source : List UInt8} :
      sys.read n = .ok size → readFile source size = [] → Transfers sys n source
  | chunk {n size : Nat} {source : List UInt8} :
      sys.read n = .ok size → readFile source size ≠ [] → (sys.write n).error = none →
      (readFile source size).length ≤ (sys.write n).count →
      Transfers sys (n + 1) (source.drop (readFile source size).length) →
      Transfers sys n source

section Plain

variable {sys : System} {source : List UInt8} {w : World}

theorem copyAll_of_error {error : BitVec 32} (hread : sys.read w.reads = .error error) :
    copyAll sys source w = (false, w.countRead.setLastError error) := by
  rw [copyAll, hread]

theorem copyAll_of_end {size : Nat} (hread : sys.read w.reads = .ok size)
    (hdata : readFile source size = []) : copyAll sys source w = (true, w.countRead) := by
  rw [copyAll, hread]
  exact dif_pos hdata

/-- What the write of a chunk leaves behind. -/
def World.written (w : World) (sys : System) (data : List UInt8) : World :=
  w.countRead.append (data.take (sys.write w.reads).count)

theorem copyAll_of_writeError {size : Nat} {error : BitVec 32}
    (hread : sys.read w.reads = .ok size) (hdata : readFile source size ≠ [])
    (hwrite : (sys.write w.reads).error = some error) :
    copyAll sys source w =
      (false, (w.written sys (readFile source size)).setLastError error) := by
  rw [copyAll, hread]
  dsimp only
  rw [dif_neg hdata, hwrite]
  rfl

theorem copyAll_of_short {size : Nat} (hread : sys.read w.reads = .ok size)
    (hdata : readFile source size ≠ []) (hwrite : (sys.write w.reads).error = none)
    (hshort : ¬ (readFile source size).length ≤ (sys.write w.reads).count) :
    copyAll sys source w =
      (false, (w.written sys (readFile source size)).setLastError errorWriteFault) := by
  rw [copyAll, hread]
  dsimp only
  rw [dif_neg hdata, hwrite]
  exact if_pos (by omega)

theorem copyAll_of_chunk {size : Nat} (hread : sys.read w.reads = .ok size)
    (hdata : readFile source size ≠ []) (hwrite : (sys.write w.reads).error = none)
    (hwhole : (readFile source size).length ≤ (sys.write w.reads).count) :
    copyAll sys source w =
      copyAll sys (source.drop (readFile source size).length)
        (w.written sys (readFile source size)) := by
  rw [copyAll, hread]
  dsimp only
  rw [dif_neg hdata, hwrite]
  exact if_neg (by omega)

theorem written_destination_of_whole {data : List UInt8}
    (hwhole : data.length ≤ (sys.write w.reads).count) :
    (w.written sys data).destination = w.destination.map (· ++ data) := by
  rw [World.written, List.take_of_length_le hwhole]
  rfl

theorem source_eq_nil (hsome : sys.ReadsSome) {n size : Nat} (hread : sys.read n = .ok size)
    (hdata : readFile source size = []) : source = [] := by
  have hsize := hsome n size hread
  rw [readFile, List.take_eq_nil_iff] at hdata
  rcases hdata with hzero | hnil
  · have : copyFileBufferSize = 65536 := rfl
    omega
  · exact hnil

theorem readFile_append_drop (size : Nat) :
    readFile source size ++ source.drop (readFile source size).length = source := by
  have htake : source.take (readFile source size).length = readFile source size := by
    rw [readFile, List.length_take, List.take_eq_take_iff]
    omega
  calc readFile source size ++ source.drop (readFile source size).length
      = source.take (readFile source size).length ++
          source.drop (readFile source size).length := by rw [htake]
    _ = source := List.take_append_drop _ _

/-- The loop of `CopyFileW` reports success exactly when every read and every write has done its
work, and then it has copied every byte. -/
theorem copyAll_spec (hsome : sys.ReadsSome) (source : List UInt8) (w : World) :
    ((copyAll sys source w).1 = true ↔ Transfers sys w.reads source) ∧
    ((copyAll sys source w).1 = true →
      (copyAll sys source w).2.destination = w.destination.map (· ++ source)) ∧
    (copyAll sys source w).2.log = w.log := by
  induction hlength : source.length using Nat.strong_induction_on generalizing source w with
  | _ length ih =>
    subst hlength
    cases hread : sys.read w.reads with
    | error error =>
      rw [copyAll_of_error hread]
      refine ⟨iff_of_false Bool.false_ne_true ?_, (fun h => nomatch h), rfl⟩
      rintro (⟨hread', _⟩ | ⟨hread', _⟩) <;> simp [hread] at hread'
    | ok size =>
      have hsame : ∀ {size'}, sys.read w.reads = .ok size' → size' = size := by
        intro size' h
        rw [hread] at h
        exact (Except.ok.inj h).symm
      by_cases hdata : readFile source size = []
      · rw [copyAll_of_end hread hdata]
        refine ⟨iff_of_true rfl (.finished hread hdata), fun _ => ?_, rfl⟩
        rw [source_eq_nil hsome hread hdata]
        cases hdestination : w.destination <;> simp [World.countRead, hdestination]
      cases hwrite : (sys.write w.reads).error with
      | some error =>
        rw [copyAll_of_writeError hread hdata hwrite]
        refine ⟨iff_of_false Bool.false_ne_true ?_, (fun h => nomatch h), rfl⟩
        rintro (⟨hread', hend⟩ | ⟨_, _, hwrite', _⟩)
        · exact hdata (hsame hread' ▸ hend)
        · simp [hwrite] at hwrite'
      | none =>
        by_cases hwhole : (readFile source size).length ≤ (sys.write w.reads).count
        · rw [copyAll_of_chunk hread hdata hwrite hwhole]
          obtain ⟨hiff, hcopied, hlog⟩ := ih _ (drop_readFile_lt hdata) _
            (w.written sys (readFile source size)) rfl
          refine ⟨⟨fun h => ?_, ?_⟩, fun h => ?_, hlog⟩
          · exact .chunk hread hdata hwrite hwhole (hiff.mp h)
          · rintro (⟨hread', hend⟩ | ⟨hread', _, _, _, hrest⟩)
            · exact absurd (hsame hread' ▸ hend) hdata
            · rw [hsame hread'] at hrest
              exact hiff.mpr hrest
          · rw [hcopied h, written_destination_of_whole hwhole]
            cases w.destination with
            | none => rfl
            | some done =>
              simp only [Option.map_some, List.append_assoc, readFile_append_drop]
        · rw [copyAll_of_short hread hdata hwrite hwhole]
          refine ⟨iff_of_false Bool.false_ne_true ?_, (fun h => nomatch h), rfl⟩
          rintro (⟨hread', hend⟩ | ⟨hread', _, _, hwhole', _⟩)
          · exact hdata (hsame hread' ▸ hend)
          · exact hwhole (hsame hread' ▸ hwhole')

end Plain

/-! ## The loop of CopyFile2 -/

/-- What a run of the loop comes to, with the messages that were `due` before it. -/
structure Follows (p : ExtendedParameters) (total : Nat) (due : List Message)
    (chunkNumber bytesTransferred : Nat) (w : World) (run : BitVec 32 × World)
    (plain : Bool × World) : Prop where
  ended : ∃ sizes, Ended p.progressRoutine run.2
    (due ++ chunkScript total sizes chunkNumber bytesTransferred)
  log : run.2.log = w.log
  matched : Matches p.progressRoutine run plain

section Chunks

variable {sys : System} {p : ExtendedParameters} {total chunkNumber bytesTransferred : Nat}
  {due : List Message} {w w' : World} {plain : Bool × World}

/-- A call has failed, and the copy fails with it. -/
theorem Follows.of_failed (sizes : List Nat) {told : List Message} {run : BitVec 32 × World}
    (htold : Told p.progressRoutine run.2 told)
    (hdue : told <+: due ++ chunkScript total sizes chunkNumber bytesTransferred)
    (hfailed : failedHresult run.1) (hplain : plain.1 = false)
    (hdestination : run.2.destination = plain.2.destination) (hlog : run.2.log = w.log) :
    Follows p total due chunkNumber bytesTransferred w run plain where
  ended := ⟨sizes, (htold.ended []).mono (by rw [List.append_nil]; exact hdue)⟩
  log := hlog
  matched := Matches.of_failed hfailed hplain hdestination

/-- The progress routine is told something on the way. -/
theorem Follows.tell (sizes : List Nat) {told : List Message} {message : Message}
    {next : World → BitVec 32 × World} (htold : Told p.progressRoutine w' told)
    (hdue : told ++ [message] <+: due ++ chunkScript total sizes chunkNumber bytesTransferred)
    (hlog : w'.log = w.log)
    (hnext : ∀ w'', Told p.progressRoutine w'' (told ++ [message]) → SameFiles w' w'' →
      Follows p total due chunkNumber bytesTransferred w (next w'') plain) :
    Follows p total due chunkNumber bytesTransferred w
      (orExit (invokeProgress p.progressRoutine message w') next) plain := by
  have hfiles := @invokeProgress_sameFiles p.progressRoutine message w'
  obtain ⟨hzero, htold'⟩ | ⟨hfailed, hrefused, hended⟩ := invokeProgress_spec htold message
  · rw [orExit_of_zero hzero]
    exact hnext _ htold' hfiles
  · rw [orExit_of_failed hfailed]
    exact {
      ended := ⟨sizes, hended.mono hdue⟩
      log := by rw [hfiles.log, hlog]
      matched := Matches.of_refused _ hfailed hrefused }

/-- The last message, after which the copy is done. -/
theorem Follows.last (sizes : List Nat) {told : List Message} {message : Message}
    (htold : Told p.progressRoutine w' told)
    (hdue : told ++ [message] <+: due ++ chunkScript total sizes chunkNumber bytesTransferred)
    (hlog : w'.log = w.log) {v : World} (hdestination : w'.destination = v.destination) :
    Follows p total due chunkNumber bytesTransferred w
      (invokeProgress p.progressRoutine message w') (true, v) := by
  have hfiles := @invokeProgress_sameFiles p.progressRoutine message w'
  have hlog' : (invokeProgress p.progressRoutine message w').2.log = w.log := by
    rw [hfiles.log, hlog]
  obtain ⟨hzero, htold'⟩ | ⟨hfailed, hrefused, hended⟩ := invokeProgress_spec htold message
  · exact {
      ended := ⟨sizes, (htold'.ended []).mono (by rw [List.append_nil]; exact hdue)⟩
      log := hlog'
      matched := Matches.of_told htold' hzero rfl (by rw [hfiles.destination, hdestination]) }
  · exact {
      ended := ⟨sizes, hended.mono hdue⟩
      log := hlog'
      matched := Matches.of_refused _ hfailed hrefused }

/-- The loop of `CopyFile2` tells the progress routine the chunks in order, and comes to what the
loop of `CopyFileW` comes to. -/
theorem copyChunks_spec (herrors : sys.ReportsErrors) (hcancel : ∀ n, p.cancel n = false)
    (source : List UInt8) (w v : World) (hnumber : chunkNumber + source.length < 2 ^ 64)
    (htransferred : bytesTransferred + source.length < 2 ^ 64)
    (htold : Told p.progressRoutine w due) (hdestination : v.destination = w.destination)
    (hreads : v.reads = w.reads) :
    Follows p total due chunkNumber bytesTransferred w
      (copyChunks sys p total source chunkNumber bytesTransferred w) (copyAll sys source v) := by
  induction hlength : source.length using Nat.strong_induction_on
    generalizing source chunkNumber bytesTransferred w v due with
  | _ length ih =>
    subst hlength
    rw [copyChunks, checkCancel_eq hcancel, orExit_zero]
    have hchecked : Told p.progressRoutine { w with checks := w.checks + 1 } due :=
      htold.of_sent rfl rfl
    refine Follows.tell [] hchecked (by simp [chunkScript]) rfl fun w₁ htold₁ hfiles₁ => ?_
    have hreads₁ : v.reads = w₁.reads := by rw [hfiles₁.reads, hreads]
    have hdestination₁ : v.destination = w₁.destination := by
      rw [hfiles₁.destination, hdestination]
    cases hread : sys.read w₁.reads with
    | error error =>
      rw [copyAll_of_error (by rw [hreads₁, hread])]
      exact Follows.of_failed [] (htold₁.of_sent rfl rfl) (by simp [chunkScript])
        (failedHresult_hresultFromWin32 (herrors.read _ _ hread)) rfl hdestination₁.symm hfiles₁.log
    | ok size =>
      have hvread : sys.read v.reads = .ok size := by rw [hreads₁, hread]
      dsimp only
      by_cases hdata : readFile source size = []
      · rw [dif_pos hdata, copyAll_of_end hvread hdata]
        have htold₂ : Told p.progressRoutine w₁.countRead _ := htold₁.of_sent rfl rfl
        have hlog : w₁.countRead.log = w.log := hfiles₁.log
        refine Follows.last [] htold₂ ?_ hlog hdestination₁.symm
        simp [chunkScript]
      rw [dif_neg hdata]
      have hlength := List.length_pos_of_ne_nil hdata
      have hle : (readFile source size).length ≤ source.length := List.length_take_le' _ _
      rw [Nat.mod_eq_of_lt (a := chunkNumber + 1) (by omega)]
      refine Follows.tell [(readFile source size).length] (htold₁.of_sent rfl rfl)
        (by simp [chunkScript]) hfiles₁.log fun w₂ htold₂ hfiles₂ => ?_
      have hlog₂ : w₂.log = w.log := by rw [hfiles₂.log, ← hfiles₁.log]; rfl
      -- the write of `CopyFileW` takes the same bytes
      have hwritten : (w₂.append ((readFile source size).take (sys.write w₁.reads).count)).destination
          = (v.written sys (readFile source size)).destination := by
        have hdestination₂ : w₂.destination = v.destination := by
          rw [hfiles₂.destination, hdestination₁]
          rfl
        simp only [World.append, World.written, World.countRead, hdestination₂, hreads₁]
      cases hwrite : (sys.write w₁.reads).error with
      | some error =>
        rw [copyAll_of_writeError hvread hdata (by rw [hreads₁, hwrite])]
        exact Follows.of_failed [(readFile source size).length]
          (htold₂.of_sent rfl rfl) (by simp [chunkScript])
          (failedHresult_hresultFromWin32 (herrors.write _ _ hwrite)) rfl hwritten hlog₂
      | none =>
        dsimp only
        by_cases hwhole : (readFile source size).length ≤ (sys.write w₁.reads).count
        swap
        · rw [if_pos (by omega), copyAll_of_short hvread hdata (by rw [hreads₁, hwrite])
            (by rwa [hreads₁])]
          exact Follows.of_failed [(readFile source size).length]
            (htold₂.of_sent rfl rfl) (by simp [chunkScript])
            (failedHresult_hresultFromWin32 (by decide)) rfl hwritten hlog₂
        rw [if_neg (by omega), copyAll_of_chunk hvread hdata (by rw [hreads₁, hwrite])
          (by rwa [hreads₁]), Nat.mod_eq_of_lt (a := bytesTransferred + _) (by omega)]
        refine Follows.tell [(readFile source size).length] (htold₂.of_sent rfl rfl)
          (by simp [chunkScript]) hlog₂ fun w₃ htold₃ hfiles₃ => ?_
        have hrest := List.length_drop (i := (readFile source size).length) (l := source)
        have hv : (v.written sys (readFile source size)).reads = w₃.reads := by
          rw [hfiles₃.reads]
          change v.reads + 1 = w₂.reads
          rw [hfiles₂.reads, hreads₁]
          rfl
        have hfollows := @ih _ (drop_readFile_lt hdata) (chunkNumber + 1)
          (bytesTransferred + (readFile source size).length) _ _ w₃
          (v.written sys (readFile source size)) (by omega) (by omega) htold₃
          (by rw [hfiles₃.destination, ← hwritten]) hv rfl
        obtain ⟨sizes, hended⟩ := hfollows.ended
        exact {
          ended := ⟨(readFile source size).length :: sizes, by
            simpa [chunkScript] using hended⟩
          log := by rw [hfollows.log, hfiles₃.log]; exact hlog₂
          matched := hfollows.matched }

end Chunks

/-! ## The whole of a copy -/

/-- The resource that an event is about. -/
def Event.resource : Event → Resource
  | .acquire resource => resource
  | .release resource => resource

/-- Each resource that has been acquired has been released once, after that. -/
def Released (log : List Event) : Prop :=
  ∀ resource, log.filter (·.resource = resource) = [] ∨
    log.filter (·.resource = resource) = [.acquire resource, .release resource]

/-- The logs of a copy that has come so far. -/
def fileLog : List (List Event) :=
  [[], [.acquire .sourceHandle, .release .sourceHandle],
    [.acquire .sourceHandle, .acquire .destinationHandle, .release .destinationHandle,
      .release .sourceHandle],
    [.acquire .sourceHandle, .acquire .destinationHandle, .acquire .buffer, .release .buffer,
      .release .destinationHandle, .release .sourceHandle]]

theorem released_of_mem {log : List Event} (h : log ∈ fileLog) : Released log := by
  intro resource
  simp only [fileLog, List.mem_cons, List.not_mem_nil, or_false] at h
  rcases h with rfl | rfl | rfl | rfl <;> cases resource <;> decide

/-- No call of a copy fails: neither on the way to the loop nor in it. -/
structure NoCallFails (sys : System) (existingFileName newFileName : Name)
    (forWrite failIfExists : Bool) : Prop where
  attributes : ∃ attributes, sys.getFileAttributes existingFileName = .ok attributes ∧
    attributes &&& fileAttributeDirectory = 0
  source : sys.openExisting existingFileName forWrite = .ok ()
  destination : sys.create newFileName failIfExists = .ok ()
  buffer : sys.allocates
  transfers : Transfers sys 0 sys.content

section Whole

variable {sys : System} {existingFileName newFileName : Name} {forWrite failIfExists : Bool}
  {destination : Option (List UInt8)} {lastError : BitVec 32}

@[simp] theorem bracket_fst {α : Type} (w : World) (resource : Resource) (body : World → α × World) :
    (w.bracket resource body).1 = (body { w with log := w.log ++ [.acquire resource] }).1 := rfl

@[simp] theorem bracket_destination {α : Type} (w : World) (resource : Resource)
    (body : World → α × World) : (w.bracket resource body).2.destination =
      (body { w with log := w.log ++ [.acquire resource] }).2.destination := rfl

@[simp] theorem bracket_sent {α : Type} (w : World) (resource : Resource)
    (body : World → α × World) : (w.bracket resource body).2.sent =
      (body { w with log := w.log ++ [.acquire resource] }).2.sent := rfl

@[simp] theorem bracket_log {α : Type} (w : World) (resource : Resource)
    (body : World → α × World) : (w.bracket resource body).2.log =
      (body { w with log := w.log ++ [.acquire resource] }).2.log ++ [.release resource] := rfl

/-- Both files are open, and the destination is empty. -/
structure Opened (w : World) : Prop where
  destination : w.destination = some []
  reads : w.reads = 0
  sent : w.sent = []
  quiet : w.quiet = false
  log : w.log = [.acquire .sourceHandle, .acquire .destinationHandle]

/-- Neither file has been closed, and the buffer has been freed if it was allocated. -/
def StillOpen (w : World) : Prop :=
  w.log = [.acquire .sourceHandle, .acquire .destinationHandle] ∨
    w.log = [.acquire .sourceHandle, .acquire .destinationHandle, .acquire .buffer,
      .release .buffer]

theorem copyBytes_spec (hsome : sys.ReadsSome) {w : World} (hw : Opened w) :
    ((copyBytes sys w).1 = true ↔ sys.allocates ∧ Transfers sys 0 sys.content) ∧
    ((copyBytes sys w).1 = true → (copyBytes sys w).2.destination = some sys.content) ∧
    StillOpen (copyBytes sys w).2 := by
  unfold copyBytes
  split_ifs with hallocates
  · obtain ⟨hiff, hcopied, hlog⟩ :=
      copyAll_spec hsome sys.content { w with log := w.log ++ [.acquire .buffer] }
    refine ⟨?_, fun h => ?_, Or.inr ?_⟩
    · rw [bracket_fst, hiff, hw.reads]
      exact (and_iff_right hallocates).symm
    · rw [bracket_destination, hcopied h, hw.destination]
      rfl
    · rw [bracket_log, hlog, hw.log]
      rfl
  · exact ⟨iff_of_false not_false fun h => hallocates h.1, (fun h => nomatch h), Or.inl hw.log⟩

/-- `CopyFile2` after both files are open, against `CopyFileW`. -/
theorem copyStream_spec (herrors : sys.ReportsErrors) {p : ExtendedParameters}
    (hcancel : ∀ n, p.cancel n = false) (hlength : sys.content.length < 2 ^ 64) {w v : World}
    (hw : Opened w) (hv : Opened v) :
    (∃ sizes, Ended p.progressRoutine (copyStream sys p w).2
      (script (totalSize sys.getFileSizeEx) sizes)) ∧
    StillOpen (copyStream sys p w).2 ∧
    Matches p.progressRoutine (copyStream sys p w) (copyBytes sys v) := by
  have htold : Told p.progressRoutine w [] := {
    begins := by simp [hw.sent]
    accepted := by simp [hw.sent, Accepted]
    listening := by simp [hw.sent, AllContinue] }
  generalize htotal : totalSize sys.getFileSizeEx = total
  have hfiles := @invokeProgress_sameFiles p.progressRoutine (.streamStarted total total) w
  rw [copyStream, htotal]
  obtain ⟨hzero, htold'⟩ | ⟨hfailed, hrefused, hended⟩ :=
    invokeProgress_spec htold (.streamStarted total total)
  swap
  · rw [orExit_of_failed hfailed]
    exact ⟨⟨[], hended.mono (by simp [script])⟩, Or.inl (by rw [hfiles.log, hw.log]),
      Matches.of_refused _ hfailed hrefused⟩
  rw [orExit_of_zero hzero]
  generalize (invokeProgress p.progressRoutine (.streamStarted total total) w).2 = w' at *
  have hdestination : v.destination = w'.destination := by
    rw [hfiles.destination, hw.destination, hv.destination]
  unfold copyBytes
  split_ifs with hallocates
  · have hbuffer : Told p.progressRoutine { w' with log := w'.log ++ [.acquire .buffer] }
        [.streamStarted total total] := htold'.of_sent rfl rfl
    have hreads : v.reads = w'.reads := by rw [hfiles.reads, hw.reads, hv.reads]
    have hfollows := @copyChunks_spec sys p total 0 0 _ herrors hcancel sys.content
      { w' with log := w'.log ++ [.acquire .buffer] }
      { v with log := v.log ++ [.acquire .buffer] } (by omega) (by omega) hbuffer hdestination
      hreads
    obtain ⟨sizes, hended⟩ := hfollows.ended
    refine ⟨⟨sizes, hended.begins, hended.attentive⟩, Or.inr ?_, ?_⟩
    · rw [bracket_log, hfollows.log, hfiles.log, hw.log]
      rfl
    · exact ⟨hfollows.matched.refused, hfollows.matched.result, hfollows.matched.destination⟩
  · refine ⟨⟨[], (htold'.ended []).mono (by simp [script])⟩, ?_, ?_⟩
    · exact Or.inl (by change w'.log = _; rw [hfiles.log, hw.log])
    · exact Matches.of_failed (failedHresult_hresultFromWin32 (by decide)) rfl hdestination.symm

/-- The world after the source has been opened. -/
def World.reading (destination : Option (List UInt8)) (lastError : BitVec 32) (checks : Nat) :
    World :=
  ⟨destination, lastError, 0, checks, [], false, [.acquire .sourceHandle]⟩

/-- The world after both files have been opened. -/
def World.opened (lastError : BitVec 32) (checks : Nat) : World :=
  ⟨some [], lastError, 0, checks, [], false, [.acquire .sourceHandle, .acquire .destinationHandle]⟩

theorem opened_world (lastError : BitVec 32) (checks : Nat) :
    Opened (World.opened lastError checks) :=
  ⟨rfl, rfl, rfl, rfl, rfl⟩

/-- What has been acquired on the way is released. -/
theorem log_mem_of_stillOpen {w : World} (h : StillOpen w) :
    w.log ++ [.release .destinationHandle] ++ [.release .sourceHandle] ∈ fileLog := by
  rcases h with h | h <;> simp [h, fileLog]

/-- A plain copy succeeds exactly when no call fails, and has copied every byte then. -/
theorem copyPlainly_spec (hsome : sys.ReadsSome) (existingFileName newFileName : Name)
    (forWrite failIfExists : Bool) (destination : Option (List UInt8)) (lastError : BitVec 32) :
    let run := copyPlainly sys existingFileName newFileName forWrite failIfExists
      (.initial destination lastError)
    (run.1 = true ↔ NoCallFails sys existingFileName newFileName forWrite failIfExists) ∧
    (run.1 = true → run.2.destination = some sys.content) ∧ run.2.log ∈ fileLog := by
  have hnot : ∀ {result : Bool × World}, result.1 = false → result.2.log ∈ fileLog →
      ¬ NoCallFails sys existingFileName newFileName forWrite failIfExists →
      (result.1 = true ↔ NoCallFails sys existingFileName newFileName forWrite failIfExists) ∧
        (result.1 = true → result.2.destination = some sys.content) ∧ result.2.log ∈ fileLog := by
    intro result hresult hlog hfails
    rw [hresult]
    exact ⟨iff_of_false Bool.false_ne_true hfails, (fun h => nomatch h), hlog⟩
  have hnil : ∀ {result : Bool × World}, result.2.log = [] → result.2.log ∈ fileLog := by
    intro result h
    rw [h]
    exact List.mem_cons_self
  unfold copyPlainly
  dsimp only
  cases hattributes : sys.getFileAttributes existingFileName with
  | error error =>
    refine hnot rfl (hnil rfl) fun h => ?_
    obtain ⟨attributes, hok, _⟩ := h.attributes
    simp [hattributes] at hok
  | ok attributes =>
    dsimp only
    by_cases hdirectory : attributes &&& fileAttributeDirectory = 0
    swap
    · rw [if_pos hdirectory]
      refine hnot rfl (hnil rfl) fun h => ?_
      obtain ⟨attributes', hok, hfile⟩ := h.attributes
      rw [hattributes] at hok
      cases hok
      exact hdirectory hfile
    rw [if_neg (not_not.mpr hdirectory)]
    cases hsource : sys.openExisting existingFileName forWrite with
    | error error =>
      refine hnot rfl (hnil rfl) fun h => ?_
      simpa [hsource] using h.source
    | ok _ =>
      dsimp only
      cases hcreate : sys.create newFileName failIfExists with
      | error error =>
        refine hnot rfl (List.mem_cons_of_mem _ List.mem_cons_self) fun h => ?_
        simpa [hcreate] using h.destination
      | ok _ =>
        obtain ⟨hiff, hcopied, hopen⟩ := copyBytes_spec hsome (opened_world lastError 0)
        refine ⟨hiff.trans ⟨fun h => ?_, fun h => ⟨h.buffer, h.transfers⟩⟩, hcopied,
          log_mem_of_stillOpen hopen⟩
        exact ⟨⟨attributes, hattributes, hdirectory⟩, hsource, hcreate, h.1, h.2⟩

/-- The parameters are such that `CopyFile2` takes them. -/
def ExtendedParameters.Valid (p : ExtendedParameters) : Prop :=
  sizeofExtendedParameters ≤ p.size ∧ p.copyFlags &&& ~~~copyFile2SupportedFlags = 0

/-- What a run of `CopyFile2` comes to, against a plain copy. -/
theorem copyFile2_spec (herrors : sys.ReportsErrors) (existingFileName newFileName : Name)
    {parameters : Option ExtendedParameters} {p : ExtendedParameters}
    (hp : parameters.getD .default = p) (hvalid : p.Valid) (hcancel : ∀ n, p.cancel n = false)
    (hlength : sys.content.length < 2 ^ 64) (destination : Option (List UInt8))
    (lastError : BitVec 32) :
    let run := copyFile2 sys (some existingFileName) (some newFileName) parameters
      (.initial destination lastError)
    (∃ sizes, Ended p.progressRoutine run.2 (script (totalSize sys.getFileSizeEx) sizes)) ∧
    run.2.log ∈ fileLog ∧
    Matches p.progressRoutine run (copyPlainly sys existingFileName newFileName p.forWrite
      p.failIfExists (.initial destination lastError)) := by
  have hended : ∀ w : World, w.sent = [] →
      ∃ sizes, Ended p.progressRoutine w (script (totalSize sys.getFileSizeEx) sizes) := by
    intro w hw
    refine ⟨[], ⟨by simp [hw], fun routine _ => ?_⟩⟩
    rw [hw]
    trivial
  unfold copyFile2 copyPlainly
  dsimp only
  rw [hp, if_neg (by have := hvalid.1; omega), if_neg (not_not.mpr hvalid.2),
    checkCancel_eq hcancel, orExit_zero]
  cases hattributes : sys.getFileAttributes existingFileName with
  | error error =>
    exact ⟨hended _ rfl, List.mem_cons_self, Matches.of_failed
      (failedHresult_hresultFromWin32 (herrors.getFileAttributes _ _ hattributes)) rfl rfl⟩
  | ok attributes =>
    dsimp only
    by_cases hdirectory : attributes &&& fileAttributeDirectory ≠ 0
    · rw [if_pos hdirectory, if_pos hdirectory]
      exact ⟨hended _ rfl, List.mem_cons_self, Matches.of_failed
        (failedHresult_hresultFromWin32 (by decide)) rfl rfl⟩
    rw [if_neg hdirectory, if_neg hdirectory]
    cases hsource : sys.openExisting existingFileName p.forWrite with
    | error error =>
      exact ⟨hended _ rfl, List.mem_cons_self, Matches.of_failed
        (failedHresult_hresultFromWin32 (herrors.openExisting _ _ _ hsource)) rfl rfl⟩
    | ok _ =>
      dsimp only
      cases hcreate : sys.create newFileName p.failIfExists with
      | error error =>
        exact ⟨hended _ rfl, List.mem_cons_of_mem _ List.mem_cons_self, Matches.of_failed
          (failedHresult_hresultFromWin32 (herrors.create _ _ _ hcreate)) rfl rfl⟩
      | ok _ =>
        obtain ⟨⟨sizes, hmessages⟩, hopen, hmatched⟩ :=
          copyStream_spec herrors hcancel hlength (opened_world lastError 1)
            (opened_world lastError 0)
        exact ⟨⟨sizes, hmessages.begins, hmessages.attentive⟩, log_mem_of_stillOpen hopen,
          hmatched.refused, hmatched.result, hmatched.destination⟩

end Whole

/-! ## Copies are exact -/

/-- What the two routines promise of a copy, with the parameters `p` of `CopyFile2`. -/
structure Exact (sys : System) (existingFileName newFileName : Name)
    (parameters : Option ExtendedParameters) (w : World) : Prop where
  /-- Success means that the destination holds the bytes of the source. -/
  copied : (copyFile2 sys (some existingFileName) (some newFileName) parameters w).1 = 0 →
    (copyFile2 sys (some existingFileName) (some newFileName) parameters w).2.destination =
      some sys.content
  /-- There is success exactly when no call fails and the progress routine lets the copy go on. -/
  succeeds : (copyFile2 sys (some existingFileName) (some newFileName) parameters w).1 = 0 ↔
    (parameters.getD .default).Valid ∧
      NoCallFails sys existingFileName newFileName (parameters.getD .default).forWrite
        (parameters.getD .default).failIfExists ∧
      Unrefused (parameters.getD .default).progressRoutine
        (copyFile2 sys (some existingFileName) (some newFileName) parameters w).2.sent
  /-- The messages number the chunks from 1 on, and the totals are the sums of their sizes. -/
  messages : ∃ sizes,
    (copyFile2 sys (some existingFileName) (some newFileName) parameters w).2.sent.reverse <+:
      script (totalSize sys.getFileSizeEx) sizes
  /-- After `COPYFILE2_PROGRESS_QUIET` the progress routine is called no more. -/
  quiet : ∀ routine, (parameters.getD .default).progressRoutine = some routine →
    ∀ later message earlier,
      (copyFile2 sys (some existingFileName) (some newFileName) parameters w).2.sent =
        later ++ message :: earlier →
      routine earlier message = .quiet → later = []
  released : Released (copyFile2 sys (some existingFileName) (some newFileName) parameters w).2.log
  /-- `CopyFileW` keeps the same promises. -/
  plain_copied : ∀ failIfExists,
    (copyFileW sys existingFileName newFileName failIfExists w).1 = true →
      (copyFileW sys existingFileName newFileName failIfExists w).2.destination = some sys.content
  plain_succeeds : ∀ failIfExists,
    (copyFileW sys existingFileName newFileName failIfExists w).1 = true ↔
      NoCallFails sys existingFileName newFileName false failIfExists
  plain_released : ∀ failIfExists,
    Released (copyFileW sys existingFileName newFileName failIfExists w).2.log
  /-- It comes to the same when the progress routine lets the copy go on and the source is not
  opened for writing. -/
  plain_same : (parameters.getD .default).Valid → (parameters.getD .default).forWrite = false →
    Unrefused (parameters.getD .default).progressRoutine
      (copyFile2 sys (some existingFileName) (some newFileName) parameters w).2.sent →
    ((copyFile2 sys (some existingFileName) (some newFileName) parameters w).1 = 0 ↔
      (copyFileW sys existingFileName newFileName (parameters.getD .default).failIfExists
        w).1 = true) ∧
    (copyFile2 sys (some existingFileName) (some newFileName) parameters w).2.destination =
      (copyFileW sys existingFileName newFileName (parameters.getD .default).failIfExists
        w).2.destination

/-- Parameters that are not valid are turned down before anything is done. -/
theorem copyFile2_of_not_valid (sys : System) (existingFileName newFileName : Name)
    {parameters : Option ExtendedParameters} (hnot : ¬ (parameters.getD .default).Valid)
    (w : World) :
    copyFile2 sys (some existingFileName) (some newFileName) parameters w =
      (hresultFromWin32 errorInvalidParameter, w) := by
  unfold copyFile2
  dsimp only
  by_cases hsize : (parameters.getD .default).size < sizeofExtendedParameters
  · rw [if_pos hsize]
  · rw [if_neg hsize, if_pos]
    intro hflags
    exact hnot ⟨by omega, hflags⟩

/-- A file system on which every call succeeds, with or without memory for a buffer. -/
def serving (content : List UInt8) (allocates : Bool) : System where
  content := content
  getFileAttributes _ := .ok 0x20
  openExisting _ _ := .ok ()
  create _ _ := .ok ()
  getFileSizeEx := some (BitVec.ofNat 64 content.length)
  allocates := allocates
  read _ := .ok 2
  write _ := ⟨2, none⟩

theorem serving_reportsErrors (content : List UInt8) (allocates : Bool) :
    (serving content allocates).ReportsErrors where
  getFileAttributes _ _ h := nomatch h
  openExisting _ _ _ h := nomatch h
  create _ _ _ h := nomatch h
  read _ _ h := nomatch h
  write _ _ h := nomatch h

theorem serving_readsSome (content : List UInt8) (allocates : Bool) :
    (serving content allocates).ReadsSome := by
  rintro _ _ ⟨⟩
  decide

/-- A progress routine that gives the same answer to every message. -/
def answeringAll (action : Action) : ExtendedParameters where
  size := 32
  copyFlags := 0
  cancel _ := false
  progressRoutine := some fun _ _ => action

end Ldk.FileApi
