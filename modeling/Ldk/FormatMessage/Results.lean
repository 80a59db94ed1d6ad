import Ldk.FormatMessage.Contract

/-!
# When FormatMessage keeps its promise

- `fallback_contract_iff`: what is put behind an entry of which nothing is delivered.
- `Route.contract_iff`: the promise is kept when the condition holds, and only then.
- `format_message_contract`: both functions, and their agreement.
-/

namespace Ldk.FormatMessage

/-! ## The condition -/

section Condition

variable {α : Type} [Zero α] [DecidableEq α] {api : Api α} {memory : Memory α}
  {allocateBuffer : Prop} [Decidable allocateBuffer] {nSize rounds : Nat} {s s' : State α}

omit [DecidableEq α] in
theorem entry_spec {e : MessageEntry} (he : 4 ≤ e.length ∧ e.length < 2 ^ 16)
    (hsize : ∀ buffer ∈ s.buffer, buffer.length = nSize) :
    Yields (ldkpFormatMessageFromResourceEntry memory allocateBuffer nSize api e s)
      (Formatted memory allocateBuffer nSize s (e.characters api)) := by
  have hlength : (e.characters api).length < 2 ^ 16 := MessageEntry.characters_length_lt he.2
  unfold ldkpFormatMessageFromResourceEntry
  rw [if_neg (Nat.not_lt_of_le he.1)]
  unfold MessageEntry.characters at hlength ⊢
  split at hlength
  · rename_i hunicode
    rw [if_pos hunicode, if_pos hunicode]
    rw [List.length_map] at hlength
    exact ldkpFormatCounted_spec hsize fun _ _ => by omega
  · rename_i hunicode
    rw [if_neg hunicode, if_neg hunicode]
    rw [List.length_map] at hlength
    exact ldkpFormatCounted_spec hsize fun _ _ => by omega

/-- What holds of the one result holds of the program. -/
theorem yields_iff {ε γ : Type} {x : Except ε γ} {result : γ} (h : x = .ok result)
    (P : γ → Prop) : Yields x P ↔ P result := by
  constructor
  · rintro ⟨a, hok, ha⟩
    obtain rfl := Except.ok.inj (h.symm.trans hok)
    exact ha
  · exact fun hresult => ⟨result, h, hresult⟩

/-! ### What a formatter leaves for the next one -/

omit [Zero α] [DecidableEq α] in
theorem Frame.buffer_isSome (h : Frame allocateBuffer s s') :
    s'.buffer.isSome = s.buffer.isSome := by
  have hbuffer := congrArg Option.isSome h.buffer
  rwa [Option.isSome_map, Option.isSome_map] at hbuffer

omit [Zero α] [DecidableEq α] in
theorem Frame.buffer_length (h : Frame allocateBuffer s s')
    (hsize : ∀ buffer ∈ s.buffer, buffer.length = nSize) :
    ∀ buffer ∈ s'.buffer, buffer.length = nSize := by
  intro buffer hbuffer
  have hlength := h.buffer
  rw [Option.mem_def.mp hbuffer, Option.map_some] at hlength
  obtain ⟨before, hbefore, hsame⟩ := Option.map_eq_some_iff.mp hlength.symm
  exact hsame.symm.trans (hsize before hbefore)

omit [Zero α] [DecidableEq α] in
/-- The next text is delivered as behind one call of `LocalAlloc`. -/
theorem Frame.delivers_iff (h : Frame allocateBuffer s s') (length : Nat) :
    Delivers memory allocateBuffer nSize s' length ↔
      Delivers memory allocateBuffer nSize { s with allocations := s.allocations + 1 }
        length := by
  unfold Delivers
  rw [h.buffer_isSome, h.allocations]
  apply and_congr_right
  intro hbuffer
  apply or_congr_left
  apply and_congr_right
  intro hallocate
  rw [if_pos ⟨hallocate, hbuffer⟩]

omit [Zero α] [DecidableEq α] in
theorem Frame.fits_iff (h : Frame allocateBuffer s s') (length : Nat) :
    Fits allocateBuffer nSize s' length ↔ Fits allocateBuffer nSize s length := by
  unfold Fits
  rw [h.buffer_isSome]

omit [Zero α] [DecidableEq α] [Decidable allocateBuffer] in
/-- What does not fit is not delivered, and in a buffer there is no other reason. -/
theorem not_fits_of_not_delivers {length : Nat} (hallocate : ¬ allocateBuffer)
    (h : ¬ Delivers memory allocateBuffer nSize s length) :
    ¬ Fits allocateBuffer nSize s length := by
  rintro (hallocate' | ⟨hbuffer, hlt⟩)
  · exact hallocate hallocate'
  · exact h ⟨hbuffer, .inr ⟨hallocate, hlt⟩⟩

/-! ### The routes -/

/-- What is put behind an entry of which nothing is delivered. -/
theorem fallback_contract_iff {builtin : Option (List UInt8)} {text : List α}
    (hrounds : 2 ^ 32 ≤ rounds) (hframe : Frame allocateBuffer s s')
    (hsize : ∀ buffer ∈ s.buffer, buffer.length = nSize) (hblank : s'.Blank allocateBuffer)
    (hbuiltin : ∀ text ∈ builtin, text ≠ [] ∧ text.length < 128 ∧ 0 ∉ text)
    (htext : 0 ∉ text) :
    Yields (fallback api memory allocateBuffer nSize rounds s' builtin)
      (Contract allocateBuffer nSize s (some text)) ↔
      FallbackCondition allocateBuffer nSize api memory s text builtin := by
  cases builtin with
  | none =>
    have hblank' : (s'.setLastError .mrMidNotFound).Blank allocateBuffer := hblank
    show Yields (.ok (0, s'.setLastError .mrMidNotFound)) _ ↔ Fits allocateBuffer nSize s _
    rw [yields_iff rfl, contract_of_blank hblank' htext]
    constructor
    · intro h
      by_contra hnot
      cases h hnot
    · exact fun hfits hnot => absurd hfits hnot
  | some message =>
    obtain ⟨hne, hlength, hzero⟩ := hbuiltin message rfl
    have hmap : (message.map api.fromAnsi).length = message.length := List.length_map _
    have hspec : Yields
        (ldkpFormatString memory allocateBuffer nSize rounds api.fromAnsi message s') _ :=
      ldkpFormatString_spec hrounds (hframe.buffer_length hsize) (by omega) fun _ _ => by omega
    obtain ⟨⟨count, last⟩, hok, hformatted⟩ := hspec
    show Yields (ldkpFormatString memory allocateBuffer nSize rounds api.fromAnsi message s') _ ↔
      (Delivers memory allocateBuffer nSize { s with allocations := s.allocations + 1 }
        message.length → text = message.map api.fromAnsi)
    rw [yields_iff hok, ← hframe.delivers_iff, ← hmap]
    cases hformatted with
    | delivered _ hlast hdelivers hstores =>
      have hfits := (hframe.fits_iff _).mp hdelivers.fits
      rw [contract_of_stores hstores hfits htext fun h => absurd (List.map_eq_nil_iff.mp h) hne]
      exact ⟨fun h _ => h, fun h => h hdelivers⟩
    | failed _ hlast hdelivers hlastBlank herror =>
      rw [contract_of_blank (hlastBlank fun _ => hblank) htext]
      refine iff_of_true ?_ fun h => absurd h hdelivers
      intro hnot
      have hallocate : ¬ allocateBuffer := fun h => hnot (.inl h)
      exact herror (not_fits_of_not_delivers hallocate hdelivers)

/-- An entry of the system, and the text of the table behind it. -/
theorem system_contract_iff {e : MessageEntry} {builtin : Option (List UInt8)}
    (hrounds : 2 ^ 32 ≤ rounds) (hsize : ∀ buffer ∈ s.buffer, buffer.length = nSize)
    (hinitial : s.block = none) (he : 4 ≤ e.length ∧ e.length < 2 ^ 16)
    (hbuiltin : ∀ text ∈ builtin, text ≠ [] ∧ text.length < 128 ∧ 0 ∉ text) :
    Yields ((Route.system (some e) builtin).run api memory allocateBuffer nSize rounds s)
      (Contract allocateBuffer nSize s (some (e.message.convert api))) ↔
      (Route.system (α := α) (some e) builtin).Condition allocateBuffer nSize api memory s := by
  have hspec : Yields (ldkpFormatMessageFromResourceEntry memory allocateBuffer nSize api e s) _ :=
    entry_spec he hsize
  obtain ⟨⟨chars, s'⟩, hok, hformatted⟩ := hspec
  have htext : 0 ∉ e.message.convert api := e.zero_notMem_convert
  unfold Route.run Route.Condition
  dsimp only
  rw [hok, Yields.ok_bind]
  dsimp only
  cases hformatted with
  | delivered _ hframe hdelivers hstores =>
    by_cases hempty : e.characters api = []
    · have hzero : (e.characters api).length = 0 := by rw [hempty]; rfl
      rw [if_neg (fun h => h hzero), if_neg (fun h => h.2 hempty)]
      rw [hempty] at hstores
      exact fallback_contract_iff hrounds hframe hsize hstores.blank hbuiltin htext
    · have hpositive : (e.characters api).length ≠ 0 :=
        fun h => hempty (List.length_eq_zero_iff.mp h)
      rw [if_pos hpositive, if_pos ⟨hdelivers, hempty⟩]
      refine (yields_iff rfl _).trans ?_
      rw [contract_of_stores hstores hdelivers.fits htext fun h => absurd h hempty]
      exact e.convert_eq_iff
  | failed _ hframe hdelivers hblank herror =>
    rw [if_neg (fun h => h rfl), if_neg (fun h => hdelivers h.1)]
    have hblank := hblank fun hallocate stored hstored => by
      rw [State.target, if_pos hallocate, hinitial] at hstored
      cases hstored
    exact fallback_contract_iff hrounds hframe hsize hblank hbuiltin htext

/-- A route keeps the promise when its condition holds, and only then. -/
theorem Route.contract_iff {r : Route α} (hr : r.WellFormed) (hrounds : 2 ^ 32 ≤ rounds)
    (hsize : ∀ buffer ∈ s.buffer, buffer.length = nSize) (hinitial : s.block = none) :
    Yields (r.run api memory allocateBuffer nSize rounds s)
      (Contract allocateBuffer nSize s (r.text api)) ↔
      r.Condition allocateBuffer nSize api memory s := by
  have hblank : s.Blank True := by
    intro stored hstored
    rw [State.target, if_pos trivial, hinitial] at hstored
    cases hstored
  -- each source of the message has its own formatter
  cases r with
  | failure error => exact iff_of_true (Yields.ok contract_none) trivial
  | entry e =>
    have hspec : Yields (ldkpFormatMessageFromResourceEntry memory allocateBuffer nSize api e s)
        _ := entry_spec hr hsize
    obtain ⟨result, hok, hformatted⟩ := hspec
    show Yields (ldkpFormatMessageFromResourceEntry memory allocateBuffer nSize api e s) _ ↔ _
    rw [yields_iff hok]
    refine (hformatted.contract_iff hblank e.zero_notMem_convert e.length_convert_le ?_).trans ?_
    · intro hempty
      rw [e.convert_message, hempty]
      rfl
    · exact imp_congr_right fun _ => e.convert_eq_iff
  | system found builtin =>
    cases found with
    | some e => exact system_contract_iff hrounds hsize hinitial (hr.1 e rfl) hr.2
    | none =>
      show Yields (fallback api memory allocateBuffer nSize rounds
        (s.setLastError .mrMidNotFound) builtin) _ ↔ True
      refine iff_of_true ?_ trivial
      cases builtin with
      | none => exact Yields.ok contract_none
      | some message =>
        obtain ⟨hne, hlength, hzero⟩ := hr.2 message rfl
        have hmap : (message.map api.fromAnsi).length = message.length := List.length_map _
        have hspec : Yields (ldkpFormatString memory allocateBuffer nSize rounds api.fromAnsi
            message (s.setLastError .mrMidNotFound)) _ :=
          ldkpFormatString_spec hrounds hsize (by omega) fun _ _ => by omega
        apply hspec.mono
        intro result hformatted
        have hcontract := (hformatted.contract_iff hblank (zero_notMem_map_fromAnsi hzero)
          (Nat.le_refl _) id).mpr fun _ => rfl
        exact ⟨hcontract.stored, hcontract.length, hcontract.tooSmall⟩
  | string text =>
    have hmap : text.val.map (fun c => c) = text.val := List.map_id' _
    show Yields (ldkpFormatString memory allocateBuffer nSize rounds (fun c => c) text.val s) _ ↔ _
    constructor
    · intro hyields
      -- a string that is too long is read behind its end
      by_contra hnot
      exact (ldkpFormatString_faults hrounds hnot).not_yields hyields
    · rintro ⟨hstring, hblock⟩
      have hspec : Yields (ldkpFormatString memory allocateBuffer nSize rounds (fun c => c)
          text.val s) _ :=
        ldkpFormatString_spec hrounds hsize hstring hblock
      apply hspec.mono
      intro result hformatted
      rw [hmap] at hformatted
      exact (hformatted.contract_iff hblank text.property (Nat.le_refl _) id).mpr fun _ => rfl

end Condition

/-! ## Lengths that are returned -/

/-- The length that is returned for a text of the table. -/
def fallbackCount (delivers : Nat → Prop) [DecidablePred delivers] : Option (List UInt8) → Nat
  | none => 0
  | some text => if delivers text.length then text.length else 0

/-- The length that is returned for a message: that of the first text of which anything is
delivered. -/
def Route.count {α : Type} [Zero α] (first second : Nat → Prop) [DecidablePred first]
    [DecidablePred second] : Route α → Nat
  | entry e => if first e.count then e.count else 0
  | system (some e) builtin =>
    if first e.count ∧ e.count ≠ 0 then e.count else fallbackCount second builtin
  | system none builtin => fallbackCount first builtin
  | _ => 0

theorem fallbackCount_congr {delivers delivers' : Nat → Prop} [DecidablePred delivers]
    [DecidablePred delivers'] (h : ∀ length, delivers length ↔ delivers' length)
    {builtin : Option (List UInt8)} :
    fallbackCount delivers builtin = fallbackCount delivers' builtin := by
  cases builtin with
  | none => rfl
  | some text => exact if_congr (h text.length) rfl rfl

section Counts

variable {α : Type} [Zero α] {api : Api α} {memory : Memory α} {allocateBuffer : Prop}
  [Decidable allocateBuffer] {nSize rounds : Nat} {s : State α} {characters : List α}

theorem Formatted.count_eq {result : Nat × State α}
    (h : Formatted memory allocateBuffer nSize s characters result) :
    result.1 = if Delivers memory allocateBuffer nSize s characters.length
      then characters.length else 0 := by
  cases h with
  | delivered s' hframe hdelivers hstores => exact (if_pos hdelivers).symm
  | failed s' hframe hdelivers hblank herror => exact (if_neg hdelivers).symm

theorem Formatted.frame {result : Nat × State α}
    (h : Formatted memory allocateBuffer nSize s characters result) :
    Frame allocateBuffer s result.2 := by
  cases h with
  | delivered s' hframe hdelivers hstores => exact hframe
  | failed s' hframe hdelivers hblank herror => exact hframe

theorem fallback_count {builtin : Option (List UInt8)} (hrounds : 2 ^ 32 ≤ rounds)
    (hsize : ∀ buffer ∈ s.buffer, buffer.length = nSize)
    (hbuiltin : ∀ text ∈ builtin, text ≠ [] ∧ text.length < 128 ∧ 0 ∉ text) :
    Yields (fallback api memory allocateBuffer nSize rounds s builtin) fun result =>
      result.1 = fallbackCount (Delivers memory allocateBuffer nSize s) builtin := by
  cases builtin with
  | none => exact Yields.ok rfl
  | some message =>
    obtain ⟨-, hlength, -⟩ := hbuiltin message rfl
    have hspec : Yields
        (ldkpFormatString memory allocateBuffer nSize rounds api.fromAnsi message s) _ :=
      ldkpFormatString_spec hrounds hsize (by omega) fun _ _ => by omega
    apply hspec.mono
    intro result hformatted
    have hcount := hformatted.count_eq
    rw [List.length_map] at hcount
    exact hcount

theorem Route.run_count {r : Route α} (hr : r.WellFormed) (hrounds : 2 ^ 32 ≤ rounds)
    (hsize : ∀ buffer ∈ s.buffer, buffer.length = nSize) (hsource : ∀ text, r ≠ .string text) :
    Yields (r.run api memory allocateBuffer nSize rounds s) fun result =>
      result.1 = r.count (Delivers memory allocateBuffer nSize s)
        (Delivers memory allocateBuffer nSize { s with allocations := s.allocations + 1 }) := by
  cases r with
  | failure error => exact Yields.ok rfl
  | string text => exact absurd rfl (hsource text)
  | entry e =>
    have hspec : Yields (ldkpFormatMessageFromResourceEntry memory allocateBuffer nSize api e s)
        _ := entry_spec hr hsize
    apply hspec.mono
    intro result hformatted
    have hcount := hformatted.count_eq
    rw [e.length_characters] at hcount
    exact hcount
  | system found builtin =>
    cases found with
    | none => exact fallback_count hrounds hsize hr.2
    | some e =>
      have hspec : Yields
          (ldkpFormatMessageFromResourceEntry memory allocateBuffer nSize api e s) _ :=
        entry_spec (hr.1 e rfl) hsize
      unfold Route.run
      apply hspec.bind
      rintro ⟨chars, s'⟩ hformatted
      have hcount := hformatted.count_eq
      have hframe := hformatted.frame
      rw [e.length_characters] at hcount
      dsimp only [Route.count] at hcount hframe ⊢
      by_cases hdelivered : Delivers memory allocateBuffer nSize s e.count ∧ e.count ≠ 0
      · rw [if_pos hdelivered.1] at hcount
        rw [if_pos hdelivered, if_pos (by rw [hcount]; exact hdelivered.2)]
        exact Yields.ok hcount
      · have hzero : chars = 0 := by
          rw [hcount]
          split
          · by_contra hne
            exact hdelivered ⟨‹_›, hne⟩
          · rfl
        rw [if_neg hdelivered, if_neg (not_not.mpr hzero)]
        apply (fallback_count hrounds (hframe.buffer_length hsize) hr.2).mono
        intro result hlast
        rw [hlast]
        exact fallbackCount_congr hframe.delivers_iff

end Counts

/-! ## Calls -/

/-- The buffer of a call, and what there is when it begins. -/
structure Call (α : Type) where
  memory : Memory α
  nSize : Nat
  buffer : Option (List α)
  lastError : Option Win32Error
  buffer_length : ∀ b ∈ buffer, b.length = nSize

def Call.state {α : Type} (call : Call α) : State α :=
  ⟨call.buffer, none, 0, call.lastError⟩

section Calls

variable {α : Type} [Zero α] (api : Api α) (sources : Sources) (strings : Nat → Text α)
  (request : Request) (call : Call α)

/-- `FormatMessageA` or `FormatMessageW`, from the beginning -/
def Call.format (rounds : Nat) : Except Fault (Nat × State α) :=
  formatMessage api sources strings call.memory rounds request call.nSize call.state

/-- The call returns, and keeps the promise for the text that the request selects. -/
def KeepsContract : Prop :=
  ∀ rounds, 2 ^ 32 ≤ rounds → Yields (call.format api sources strings request rounds)
    (Contract request.AllocateBuffer call.nSize call.state
      ((route sources strings request).text api))

/-- The condition for the call. -/
def MeetsCondition : Prop :=
  (route sources strings request).Condition request.AllocateBuffer call.nSize api call.memory
    call.state

variable {api sources strings request call} [DecidableEq α]

theorem keepsContract_iff :
    KeepsContract api sources strings request call ↔
      MeetsCondition api sources strings request call := by
  have hiff : ∀ rounds, 2 ^ 32 ≤ rounds →
      (Yields (call.format api sources strings request rounds)
        (Contract request.AllocateBuffer call.nSize call.state
          ((route sources strings request).text api)) ↔
        MeetsCondition api sources strings request call) := by
    intro rounds hrounds
    unfold Call.format
    rw [formatMessage_eq]
    exact Route.contract_iff (route_wellFormed sources strings request) hrounds
      call.buffer_length rfl
  constructor
  · exact fun h => (hiff _ (Nat.le_refl _)).mp (h _ (Nat.le_refl _))
  · exact fun h rounds hrounds => (hiff rounds hrounds).mpr h

omit [DecidableEq α] in
theorem Call.count_eq (hsource : ∀ text, route sources strings request ≠ .string text)
    {rounds : Nat} (hrounds : 2 ^ 32 ≤ rounds) {result : Nat × State α}
    (hok : call.format api sources strings request rounds = .ok result) :
    result.1 = (route sources strings request).count
      (Delivers call.memory request.AllocateBuffer call.nSize call.state)
      (Delivers call.memory request.AllocateBuffer call.nSize
        { call.state with allocations := call.state.allocations + 1 }) := by
  unfold Call.format at hok
  rw [formatMessage_eq] at hok
  have hsize : ∀ buffer ∈ call.state.buffer, buffer.length = call.nSize := call.buffer_length
  exact (yields_iff hok _).mp
    (Route.run_count (route_wellFormed sources strings request) hrounds hsize hsource)

omit [DecidableEq α] in
/-- What is stored for a message is its text, and its length is returned. -/
theorem KeepsContract.stores (h : KeepsContract api sources strings request call)
    (hsource : ∀ text, route sources strings request ≠ .string text) {message : Message}
    (hmessage : message ∈ (route sources strings request).message) {rounds : Nat}
    (hrounds : 2 ^ 32 ≤ rounds) {result : Nat × State α}
    (hok : call.format api sources strings request rounds = .ok result)
    (hpositive : 0 < result.1) :
    result.2.Stores request.AllocateBuffer (message.convert api) ∧
      result.1 = (message.convert api).length := by
  have hcontract := (yields_iff hok _).mp (h rounds hrounds)
  obtain ⟨t, ht, -, hstores⟩ := hcontract.stored.mp hpositive
  have htext : t = message.convert api := by
    rw [Route.text_eq hsource, Option.mem_def.mp hmessage] at ht
    exact (Option.some.inj ht).symm
  rw [← htext]
  exact ⟨hstores, hcontract.length hpositive t ht⟩

end Calls

/-! ## Both functions -/

/-- Two requests for the same message of a module or of the system. -/
structure SameMessage (request request' : Request) : Prop where
  lpSource : request.lpSource = request'.lpSource
  dwMessageId : request.dwMessageId = request'.dwMessageId
  dwLanguageId : request.dwLanguageId = request'.dwLanguageId
  fromHmodule : request.FromHmodule ↔ request'.FromHmodule
  fromSystem : request.FromSystem ↔ request'.FromSystem
  source : request.FromHmodule ∨ request.FromSystem

/-- The two calls have the same room for a message. -/
structure SameRoom (request request' : Request) (a : Call UInt8) (w : Call WCHAR) : Prop where
  allocateBuffer : request.AllocateBuffer ↔ request'.AllocateBuffer
  nSize : a.nSize = w.nSize
  buffer : a.buffer.isSome = w.buffer.isSome
  memory : ∀ i, (a.memory i).isSome = (w.memory i).isSome

section Agreement

variable (sources : Sources) (ansiStrings : Nat → Text UInt8) (wideStrings : Nat → Text WCHAR)
  (request request' : Request) (a : Call UInt8) (w : Call WCHAR)

/-- The same message is selected, and if its characters are below `0x80` the two functions return
the same characters. With the same room they return the same length, whatever the message. -/
def Agree : Prop :=
  SameMessage request request' →
    (route sources ansiStrings request).message =
      (route sources wideStrings request').message ∧
    ∀ rounds, 2 ^ 32 ≤ rounds → ∀ result result',
      a.format ansiApi sources ansiStrings request rounds = .ok result →
      w.format wideApi sources wideStrings request' rounds = .ok result' →
      (SameRoom request request' a w → result.1 = result'.1) ∧
      ∀ message ∈ (route sources ansiStrings request).message, message.Ascii →
        0 < result.1 → 0 < result'.1 → ∃ text text',
          result.2.Stores request.AllocateBuffer text ∧
          result'.2.Stores request'.AllocateBuffer text' ∧
          result.1 = text.length ∧ result'.1 = text'.length ∧
          text.map UInt8.toNat = text'.map UInt16.toNat

variable {sources ansiStrings wideStrings request request' a w}

variable (sources ansiStrings wideStrings) in
/-- Requests for the same message have the same route, but for the strings of the callers. -/
theorem SameMessage.routes (h : SameMessage request request') :
    (∃ error, route sources ansiStrings request = .failure error ∧
      route sources wideStrings request' = .failure error) ∨
    (∃ e, route sources ansiStrings request = .entry e ∧
      route sources wideStrings request' = .entry e) ∨
    ∃ found builtin, route sources ansiStrings request = .system found builtin ∧
      route sources wideStrings request' = .system found builtin := by
  have hsystem : ∃ found builtin,
      systemRoute (α := UInt8) sources request = .system found builtin ∧
        systemRoute (α := WCHAR) sources request' = .system found builtin := by
    unfold systemRoute
    rw [h.dwMessageId, h.dwLanguageId]
    exact ⟨_, _, rfl, rfl⟩
  unfold route
  rw [h.lpSource, h.dwMessageId, h.dwLanguageId]
  by_cases hmodule : request'.FromHmodule
  · rw [if_pos (h.fromHmodule.mpr hmodule), if_pos hmodule]
    by_cases hsource : request'.lpSource = 0
    · rw [if_pos hsource, if_pos hsource]
      exact .inl ⟨_, rfl, rfl⟩
    · rw [if_neg hsource, if_neg hsource]
      cases sources.ldkpFindMessageInMappedImage
          (ldkpNormalizeFormatMessageModuleHandle request'.lpSource) request'.dwMessageId
          (request'.dwLanguageId % 2 ^ 16) with
      | some e => exact .inr (.inl ⟨e, rfl, rfl⟩)
      | none =>
        dsimp only
        by_cases hfrom : request'.FromSystem
        · rw [if_pos (h.fromSystem.mpr hfrom), if_pos hfrom]
          exact .inr (.inr hsystem)
        · rw [if_neg (fun hnot => hfrom (h.fromSystem.mp hnot)), if_neg hfrom]
          exact .inl ⟨_, rfl, rfl⟩
  · have hmodule' : ¬ request.FromHmodule := fun hnot => hmodule (h.fromHmodule.mp hnot)
    have hfrom : request.FromSystem := h.source.resolve_left hmodule'
    rw [if_neg hmodule', if_neg hmodule, if_pos hfrom, if_pos (h.fromSystem.mp hfrom)]
    exact .inr (.inr hsystem)

/-- Characters below `0x80` are the same in both functions. -/
theorem Message.Ascii.convert_eq {message : Message} (h : message.Ascii) :
    (message.convert ansiApi).map UInt8.toNat = (message.convert wideApi).map UInt16.toNat := by
  cases message with
  | ansi text =>
    show (text.map _).map _ = (text.map _).map _
    rw [List.map_map, List.map_map]
    apply List.map_congr_left
    intro c hc
    exact (UInt8.toNat_toUInt16 c).symm
  | wide text =>
    show (text.map _).map _ = (text.map _).map _
    rw [List.map_map, List.map_map]
    apply List.map_congr_left
    intro c hc
    have hascii : c.toNat < 0x80 := h c hc
    have hle : c ≤ 0x7f := Nat.le_of_lt_succ hascii
    show (if c ≤ 0x7f then c.toUInt8 else 0x3f).toNat = c.toNat
    rw [if_pos hle, UInt16.toNat_toUInt8]
    exact Nat.mod_eq_of_lt (by omega)

/-- With the same room the same texts are delivered. -/
theorem SameRoom.delivers_iff (h : SameRoom request request' a w) (allocations length : Nat) :
    Delivers a.memory request.AllocateBuffer a.nSize
        { a.state with allocations := allocations } length ↔
      Delivers w.memory request'.AllocateBuffer w.nSize
        { w.state with allocations := allocations } length := by
  unfold Delivers Call.state
  rw [h.buffer, h.nSize, h.memory, h.allocateBuffer]

variable (sources ansiStrings wideStrings) in
/-- A request for a module or for the system has no string for a route. -/
theorem SameMessage.ne_string (h : SameMessage request request') :
    (∀ text, route sources ansiStrings request ≠ .string text) ∧
      ∀ text, route sources wideStrings request' ≠ .string text := by
  rcases h.routes sources ansiStrings wideStrings
    with ⟨error, hroute, hroute'⟩ | ⟨e, hroute, hroute'⟩ | ⟨found, builtin, hroute, hroute'⟩
  all_goals
    rw [hroute, hroute']
    exact ⟨fun _ => nofun, fun _ => nofun⟩

/-- With the same room the same length is returned for a message. -/
theorem SameRoom.count_eq (h : SameRoom request request' a w)
    (hmessage : SameMessage request request') :
    (route sources ansiStrings request).count
        (Delivers a.memory request.AllocateBuffer a.nSize a.state)
        (Delivers a.memory request.AllocateBuffer a.nSize
          { a.state with allocations := a.state.allocations + 1 }) =
      (route sources wideStrings request').count
        (Delivers w.memory request'.AllocateBuffer w.nSize w.state)
        (Delivers w.memory request'.AllocateBuffer w.nSize
          { w.state with allocations := w.state.allocations + 1 }) := by
  have hfirst : ∀ length, Delivers a.memory request.AllocateBuffer a.nSize a.state length ↔
    Delivers w.memory request'.AllocateBuffer w.nSize w.state length := h.delivers_iff 0
  have hsecond := h.delivers_iff 1
  rcases hmessage.routes sources ansiStrings wideStrings
    with ⟨error, hroute, hroute'⟩ | ⟨e, hroute, hroute'⟩ | ⟨found, builtin, hroute, hroute'⟩
  · rw [hroute, hroute']
    rfl
  · rw [hroute, hroute']
    exact if_congr (hfirst e.count) rfl rfl
  · rw [hroute, hroute']
    cases found with
    | none => exact fallbackCount_congr hfirst
    | some e =>
      exact if_congr (and_congr_left fun _ => hfirst e.count) rfl (fallbackCount_congr hsecond)

/-- The promise of both functions leaves room for one message and one text of it. -/
theorem agree_of_keepsContract
    (ha : KeepsContract ansiApi sources ansiStrings request a)
    (hw : KeepsContract wideApi sources wideStrings request' w) :
    Agree sources ansiStrings wideStrings request request' a w := by
  intro hmessage
  have hsame : (route sources ansiStrings request).message =
      (route sources wideStrings request').message := by
    rcases hmessage.routes sources ansiStrings wideStrings
      with ⟨error, hroute, hroute'⟩ | ⟨e, hroute, hroute'⟩ | ⟨found, builtin, hroute, hroute'⟩
    · rw [hroute, hroute']
      rfl
    · rw [hroute, hroute']
      rfl
    · rw [hroute, hroute']
      cases found <;> rfl
  obtain ⟨hsource, hsource'⟩ := hmessage.ne_string sources ansiStrings wideStrings
  refine ⟨hsame, ?_⟩
  intro rounds hrounds result result' hok hok'
  constructor
  · intro hroom
    rw [Call.count_eq hsource hrounds hok, Call.count_eq hsource' hrounds hok']
    exact hroom.count_eq hmessage
  · intro message hselected hascii hpositive hpositive'
    obtain ⟨hstores, hlength⟩ := ha.stores hsource hselected hrounds hok hpositive
    obtain ⟨hstores', hlength'⟩ :=
      hw.stores hsource' (hsame ▸ hselected) hrounds hok' hpositive'
    exact ⟨_, _, hstores, hstores', hlength, hlength', hascii.convert_eq⟩

end Agreement

/-- `Hi`, with two zeros up to the length of the entry. -/
def paddedEntry : MessageEntry where
  length := 8
  flags := 0
  text
    | 0 => 0x48
    | 1 => 0x69
    | _ => 0

/-- 24 characters. -/
def longEntry : MessageEntry where
  length := 28
  flags := 0
  text _ := 0x78

/-- A module at `0x10000` with the message 1, and an image of the system with the message 5. -/
def twoEntries : Sources where
  ldkpFindMessageInMappedImage imageBase messageId _ :=
    if imageBase = 0x10000 ∧ messageId = 1 then some paddedEntry else none
  ldkpFindSystemMessageInCachedImages messageId _ :=
    if messageId = 5 then some longEntry else none
  mapped_length imageBase messageId languageId entry h := by
    split at h
    · obtain rfl := Option.some.inj h
      decide
    · cases h
  cached_length messageId languageId entry h := by
    split at h
    · obtain rfl := Option.some.inj h
      decide
    · cases h

def noStrings : Nat → Text UInt8 := fun _ => ⟨[], nofun⟩

/-- A call with a buffer of 24 characters. -/
def shortBuffer : Call UInt8 where
  memory _ := none
  nSize := 24
  buffer := some (List.replicate 24 0)
  lastError := none
  buffer_length b h := by
    obtain rfl := Option.some.inj h
    rfl

end Ldk.FormatMessage
