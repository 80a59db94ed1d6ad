import Mathlib
import Ldk.FormatMessage.Formatters

/-!
# What FormatMessage promises

A message is selected by the request; its text ends at the first zero. The text is stored with a
zero behind it, and its length is returned; a text that does not fit is an error.

- `Route`: which of the parts of `FormatMessage` a request leads to, and the message it selects.
- `Contract`: what is promised of a call for a text, if there is one.
- `Route.Condition`: an entry that is delivered is not padded with zeros, and no other message is
  delivered behind an entry that is not; a string has fewer than `2 ^ 32` characters.
- `contract_of_stores`, `contract_of_blank`: what is left of the promise when a formatter has put its
  characters, and when it has put nothing.
-/

namespace Ldk.FormatMessage

open OutputBuffer (Holds)

/-! ## Messages -/

/-- The text of a message, in the characters of its source. -/
inductive Message where
  | ansi (text : List UInt8)
  | wide (text : List WCHAR)

section Texts

variable {α : Type} [Zero α] (api : Api α)

/-- The text in the characters of the target. -/
def Message.convert : Message → List α
  | .ansi text => text.map api.fromAnsi
  | .wide text => text.map api.fromWide

/-- All characters are below `0x80`. -/
def Message.Ascii : Message → Prop
  | .ansi text => ∀ c ∈ text, c < 0x80
  | .wide text => ∀ c ∈ text, c < 0x80

namespace MessageEntry

variable (entry : MessageEntry)

/-- The characters up to the first zero. -/
def message : Message :=
  if entry.Unicode then .wide (entry.wideText.takeWhile (· ≠ 0))
  else .ansi (entry.ansiText.takeWhile (· ≠ 0))

/-- All of the characters. -/
def characters : List α :=
  if entry.Unicode then entry.wideText.map api.fromWide else entry.ansiText.map api.fromAnsi

/-- How many characters there are. -/
def count : Nat := if entry.Unicode then entry.textBytes / 2 else entry.textBytes

/-- There is no zero among the characters. -/
def Unpadded : Prop := 0 ∉ entry.characters api

instance [DecidableEq α] : Decidable (entry.Unpadded api) := inferInstanceAs (Decidable (¬ _))

end MessageEntry

/-! ## Routes -/

/-- Which part of `FormatMessage` is used. -/
inductive Route (α : Type) [Zero α] where
  | failure (error : Win32Error)
  | entry (entry : MessageEntry)
  | system (entry : Option MessageEntry) (builtin : Option (List UInt8))
  | string (text : Text α)

variable (sources : Sources) (strings : Nat → Text α) (request : Request)

def systemRoute : Route α :=
  .system (sources.ldkpFindSystemMessageInCachedImages request.dwMessageId
    (request.dwLanguageId % 2 ^ 16)) (ldkpLookupSystemErrorMessage request.dwMessageId)

/-- The part a request leads to: a module comes before the system, and both before a string. -/
def route : Route α :=
  if request.FromHmodule then
    if request.lpSource = 0 then .failure .invalidHandle
    else
      match sources.ldkpFindMessageInMappedImage
        (ldkpNormalizeFormatMessageModuleHandle request.lpSource) request.dwMessageId
        (request.dwLanguageId % 2 ^ 16) with
      | some entry => .entry entry
      | none =>
        if request.FromSystem then systemRoute sources request else .failure .mrMidNotFound
  else if request.FromSystem then systemRoute sources request
  else if request.FromString ∧ request.lpSource ≠ 0 then .string (strings request.lpSource)
  else .failure .invalidParameter

namespace Route

/-- The message of a module or of the system: an entry, or else the text of the table. -/
def message : Route α → Option Message
  | failure _ => none
  | entry e => some e.message
  | system (some e) _ => some e.message
  | system none builtin => builtin.map .ansi
  | string _ => none

/-- The text of the selected message. -/
def text : Route α → Option (List α)
  | string text => some text.val
  | failure _ => none
  | entry e => some (e.message.convert api)
  | system (some e) _ => some (e.message.convert api)
  | system none builtin => builtin.map fun text => text.map api.fromAnsi

variable {api} in
theorem text_eq {r : Route α} (h : ∀ text, r ≠ .string text) :
    r.text api = r.message.map (·.convert api) := by
  cases r with
  | failure error => rfl
  | entry e => rfl
  | system found builtin =>
    cases found with
    | some e => rfl
    | none => cases builtin <;> rfl
  | string text => exact absurd rfl (h text)

end Route

end Texts

/-! ## The promise -/

section Contract

variable {α : Type} [Zero α] (allocateBuffer : Prop) [Decidable allocateBuffer] (nSize : Nat)

/-- What is promised of a call that began in the state `s`. -/
structure Contract (s : State α) (text : Option (List α)) (result : Nat × State α) : Prop where
  stored : 0 < result.1 ↔ ∃ t ∈ text, t ≠ [] ∧ result.2.Stores allocateBuffer t
  length : 0 < result.1 → ∀ t ∈ text, result.1 = t.length
  tooSmall : ∀ t ∈ text, ¬ Fits allocateBuffer nSize s t.length →
    result.1 = 0 ∧ result.2.lastError = some .insufficientBuffer ∧
      result.2.Blank allocateBuffer

/-- When the promise of a text is kept though nothing of it is delivered: the text of the table that
is delivered in its place is the same, or there is none and the error is about something else. -/
def FallbackCondition (api : Api α) (memory : Memory α) (s : State α) (text : List α) :
    Option (List UInt8) → Prop
  | none => Fits allocateBuffer nSize s text.length
  | some builtin =>
    Delivers memory allocateBuffer nSize { s with allocations := s.allocations + 1 }
      builtin.length → text = builtin.map api.fromAnsi

/-- When a route keeps the promise. -/
def Route.Condition (api : Api α) (memory : Memory α) (s : State α) : Route α → Prop
  | failure _ => True
  | entry e =>
    Delivers memory allocateBuffer nSize s (e.characters api).length → e.Unpadded api
  | system none _ => True
  | system (some e) builtin =>
    if Delivers memory allocateBuffer nSize s (e.characters api).length ∧
      e.characters api ≠ [] then e.Unpadded api
    else FallbackCondition allocateBuffer nSize api memory s (e.message.convert api) builtin
  | string text =>
    text.val.length < 2 ^ 32 ∧ (allocateBuffer →
      Delivers memory allocateBuffer nSize s text.val.length → text.val.length + 1 < 2 ^ 32)

end Contract

/-! ## Texts and zeros -/

section Zeros

variable {α : Type} [Zero α] [DecidableEq α]

theorem zero_notMem_takeWhile (l : List α) : 0 ∉ l.takeWhile (· ≠ 0) := by
  intro hzero
  have hne := List.mem_takeWhile_imp hzero
  exact absurd rfl (of_decide_eq_true hne)

theorem takeWhile_eq_self {l : List α} (h : 0 ∉ l) : l.takeWhile (· ≠ 0) = l := by
  apply List.takeWhile_eq_self_iff.mpr
  intro c hc
  apply decide_eq_true
  rintro rfl
  exact h hc

/-- A conversion by which only a zero becomes a zero leaves the first zero where it is. -/
theorem takeWhile_map_ne_zero {β : Type} [Zero β] [DecidableEq β] {convert : β → α}
    (h : ∀ c, convert c = 0 ↔ c = 0) (l : List β) :
    (l.map convert).takeWhile (· ≠ 0) = (l.takeWhile (· ≠ 0)).map convert := by
  rw [List.takeWhile_map]
  congr 2
  funext c
  exact decide_eq_decide.mpr (not_congr (h c))

/-- A text that has no zero, before the zero that ends it. -/
theorem takeWhile_of_holds {buffer text : List α} (h : Holds buffer (text ++ [0]))
    (htext : 0 ∉ text) : buffer.takeWhile (· ≠ 0) = text := by
  apply h.takeWhile
  · intro c hc
    apply decide_eq_true
    rintro rfl
    exact htext hc
  · exact decide_eq_false (not_not.mpr rfl)

/-- What is stored up to the first zero has that zero behind it. -/
theorem holds_takeWhile {buffer characters : List α} (h : Holds buffer (characters ++ [0])) :
    Holds buffer (characters.takeWhile (· ≠ 0) ++ [0]) := by
  have hsplit := List.takeWhile_append_dropWhile (p := fun c : α => decide (c ≠ 0))
    (l := characters)
  cases hrest : characters.dropWhile (fun c : α => decide (c ≠ 0)) with
  | nil =>
    rw [hrest, List.append_nil] at hsplit
    rw [hsplit]
    exact h
  | cons c rest =>
    have hzero : c = 0 := by
      have hne : characters.dropWhile (fun c : α => decide (c ≠ 0)) ≠ [] := by
        rw [hrest]
        exact List.cons_ne_nil _ _
      have hhead := List.head_dropWhile_not (fun c : α => decide (c ≠ 0)) hne
      simp only [hrest, List.head_cons] at hhead
      exact not_not.mp (of_decide_eq_false hhead)
    subst hzero
    rw [← hsplit, hrest, ← List.singleton_append, ← List.append_assoc, List.append_assoc _ rest]
      at h
    exact h.left

variable {allocateBuffer : Prop} [Decidable allocateBuffer] {s : State α} {nSize : Nat}
  {characters text : List α}

/-- The one text that is stored with some characters is theirs up to the first zero. -/
theorem State.Stores.iff (h : s.Stores allocateBuffer characters) (htext : 0 ∉ text) :
    s.Stores allocateBuffer text ↔ text = characters.takeWhile (· ≠ 0) := by
  obtain ⟨stored, htarget, hholds⟩ := h
  constructor
  · rintro ⟨stored', htarget', hholds'⟩
    obtain rfl := Option.some.inj ((Option.mem_def.mp htarget).symm.trans htarget')
    rw [← takeWhile_of_holds hholds' htext,
      takeWhile_of_holds (holds_takeWhile hholds) (zero_notMem_takeWhile characters)]
  · rintro rfl
    exact ⟨stored, htarget, holds_takeWhile hholds⟩

/-- Where nothing is stored, only the empty text is. -/
theorem State.Blank.eq_nil (h : s.Blank allocateBuffer) (htext : 0 ∉ text)
    (hstores : s.Stores allocateBuffer text) : text = [] := by
  obtain ⟨stored, htarget, hholds⟩ := hstores
  rcases h stored htarget with rfl | hempty
  · exact absurd hholds.length_le (by simp)
  · rw [← takeWhile_of_holds hholds htext]
    exact takeWhile_of_holds (show Holds stored ([] ++ [0]) from hempty) List.not_mem_nil

omit [DecidableEq α] in
theorem State.Stores.blank (h : s.Stores allocateBuffer []) : s.Blank allocateBuffer := by
  obtain ⟨stored, htarget, hholds⟩ := h
  intro stored' htarget'
  obtain rfl := Option.some.inj ((Option.mem_def.mp htarget).symm.trans htarget')
  exact .inr hholds

end Zeros

section Outcomes

variable {α : Type} [Zero α] [DecidableEq α] {allocateBuffer : Prop} [Decidable allocateBuffer]
  {s s' : State α} {nSize : Nat} {characters text : List α}

/-- Characters that are delivered have to be the text. -/
theorem contract_of_stores (hstores : s'.Stores allocateBuffer characters)
    (hfits : Fits allocateBuffer nSize s characters.length) (htext : 0 ∉ text)
    (hempty : characters = [] → text = []) :
    Contract allocateBuffer nSize s (some text) (characters.length, s') ↔ text = characters := by
  constructor
  · intro h
    by_cases hcharacters : characters = []
    · rw [hcharacters]
      exact hempty hcharacters
    · have hpositive := List.length_pos_iff.mpr hcharacters
      obtain ⟨t, ht, -, hstored⟩ := h.stored.mp hpositive
      obtain rfl := Option.some.inj ht
      have hlength := h.length hpositive text rfl
      have hfirst := (hstores.iff htext).mp hstored
      rw [hfirst] at hlength ⊢
      exact (List.takeWhile_prefix _).eq_of_length hlength.symm
  · rintro rfl
    refine ⟨?_, ?_, ?_⟩
    · constructor
      · exact fun hpositive => ⟨text, rfl, List.length_pos_iff.mp hpositive, hstores⟩
      · rintro ⟨t, ht, hne, -⟩
        obtain rfl := Option.some.inj ht
        exact List.length_pos_iff.mpr hne
    · intro _ t ht
      rw [Option.some.inj ht]
    · intro t ht hnot
      obtain rfl := Option.some.inj ht
      exact absurd hfits hnot

/-- Where nothing is delivered, a text that does not fit is an error. -/
theorem contract_of_blank (hblank : s'.Blank allocateBuffer) (htext : 0 ∉ text) :
    Contract allocateBuffer nSize s (some text) (0, s') ↔
      (¬ Fits allocateBuffer nSize s text.length →
        s'.lastError = some .insufficientBuffer) := by
  constructor
  · exact fun h hnot => (h.tooSmall text rfl hnot).2.1
  · intro herror
    refine ⟨?_, fun h => absurd h (Nat.lt_irrefl 0), ?_⟩
    · refine iff_of_false (Nat.lt_irrefl 0) ?_
      rintro ⟨t, ht, hne, hstored⟩
      obtain rfl := Option.some.inj ht
      exact hne (hblank.eq_nil htext hstored)
    · intro t ht hnot
      obtain rfl := Option.some.inj ht
      exact ⟨rfl, herror hnot, hblank⟩

omit [DecidableEq α] in
/-- Nothing is promised of a message that is not there but that 0 is returned. -/
theorem contract_none : Contract allocateBuffer nSize s none (0, s') :=
  ⟨iff_of_false (Nat.lt_irrefl 0) (fun ⟨_, ht, _⟩ => nomatch ht), fun _ => nofun, nofun⟩

/-- What one formatter does with the characters of a text keeps the promise. -/
theorem Formatted.contract_iff {memory : Memory α} {result : Nat × State α}
    (h : Formatted memory allocateBuffer nSize s characters result)
    (hinitial : s.Blank True) (htext : 0 ∉ text) (hle : text.length ≤ characters.length)
    (hempty : characters = [] → text = []) :
    Contract allocateBuffer nSize s (some text) result ↔
      (Delivers memory allocateBuffer nSize s characters.length → text = characters) := by
  cases h with
  | delivered s' hframe hdelivers hstores =>
    rw [contract_of_stores hstores hdelivers.fits htext hempty]
    exact ⟨fun h _ => h, fun h => h hdelivers⟩
  | failed s' hframe hdelivers hblank herror =>
    have hblank := hblank fun hallocate stored hstored => hinitial stored
      (by rw [State.target, if_pos hallocate] at hstored; exact hstored)
    rw [contract_of_blank hblank htext]
    refine iff_of_true ?_ fun h => absurd h hdelivers
    exact fun hnot => herror fun hfits => hnot (hfits.of_le hle)

end Outcomes

/-! ## Entries and the table -/

section Entries

variable {α : Type} [Zero α] [DecidableEq α] {api : Api α}

omit [DecidableEq α] in
theorem MessageEntry.length_characters (entry : MessageEntry) :
    (entry.characters api).length = entry.count := by
  unfold characters count ansiText wideText
  split <;> rw [List.length_map, List.length_map, List.length_range]

omit [DecidableEq α] in
theorem MessageEntry.characters_length_lt {entry : MessageEntry} (h : entry.length < 2 ^ 16) :
    (entry.characters api).length < 2 ^ 16 := by
  rw [entry.length_characters]
  unfold count textBytes
  split <;> omega

/-- The text of an entry is its characters up to the first zero. -/
theorem MessageEntry.convert_message (entry : MessageEntry) :
    entry.message.convert api = (entry.characters api).takeWhile (· ≠ 0) := by
  unfold message characters
  split
  · exact (takeWhile_map_ne_zero api.fromWide_eq_zero _).symm
  · exact (takeWhile_map_ne_zero api.fromAnsi_eq_zero _).symm

theorem MessageEntry.zero_notMem_convert (entry : MessageEntry) :
    0 ∉ entry.message.convert api := by
  rw [entry.convert_message]
  exact zero_notMem_takeWhile _

theorem MessageEntry.length_convert_le (entry : MessageEntry) :
    (entry.message.convert api).length ≤ (entry.characters api).length := by
  rw [entry.convert_message]
  exact (List.takeWhile_prefix _).length_le

/-- The text is all of the characters when they are not padded. -/
theorem MessageEntry.convert_eq_iff (entry : MessageEntry) :
    entry.message.convert api = entry.characters api ↔ entry.Unpadded api := by
  constructor
  · intro h
    unfold Unpadded
    rw [← h]
    exact entry.zero_notMem_convert
  · intro h
    rw [entry.convert_message, takeWhile_eq_self h]

/-- Characters of one byte each, and no zero among them. -/
def isAsciiText (characters : List Char) : Bool :=
  !characters.isEmpty && decide (characters.length < 128) &&
    characters.all fun c => decide (0 < c.toNat) && decide (c.toNat < 0x80)

/-- A character below `0x80` is its own byte. -/
theorem flatMap_utf8EncodeChar {characters : List Char} (h : ∀ c ∈ characters, c.toNat < 0x80) :
    characters.flatMap String.utf8EncodeChar = characters.map fun c => c.val.toUInt8 := by
  induction characters with
  | nil => rfl
  | cons c characters ih =>
    rw [List.forall_mem_cons] at h
    have hsize : c.utf8Size = 1 := by
      have hle : c.val.toNat ≤ 0x7f := Nat.le_of_lt_succ h.1
      exact if_pos (UInt32.le_iff_toNat_le.mpr hle)
    rw [List.flatMap_cons, String.utf8EncodeChar_eq_singleton hsize, ih h.2]
    rfl

theorem systemErrorMessages_ascii : ∀ p ∈ systemErrorMessages,
    ∃ characters, p.2 = String.ofList characters ∧ isAsciiText characters = true := by
  unfold systemErrorMessages
  simp only [List.forall_mem_cons]
  repeat' apply And.intro
  all_goals first | exact ⟨_, rfl, rfl⟩ | exact List.forall_mem_nil _

/-- A text of the table is not empty, it is short and has characters below `0x80` alone. -/
theorem systemErrorMessages_spec : ∀ p ∈ systemErrorMessages,
    let text := p.2.toByteArray.data.toList
    text ≠ [] ∧ text.length < 128 ∧ 0 ∉ text ∧ ∀ c ∈ text, c < 0x80 := by
  intro p hp
  obtain ⟨characters, hp, hascii⟩ := systemErrorMessages_ascii p hp
  obtain ⟨⟨hne, hlength⟩, hall⟩ : (characters ≠ [] ∧ characters.length < 128) ∧
      ∀ c ∈ characters, 0 < c.toNat ∧ c.toNat < 0x80 := by
    simpa [isAsciiText] using hascii
  have htext : p.2.toByteArray.data.toList = characters.map fun c => c.val.toUInt8 := by
    rw [hp, String.toByteArray_ofList]
    exact List.toList_data_toByteArray.trans (flatMap_utf8EncodeChar fun c hc => (hall c hc).2)
  have hbyte (c : Char) (hc : c ∈ characters) :
      0 < c.val.toUInt8 ∧ c.val.toUInt8 < 0x80 := by
    obtain ⟨hpos, hlt⟩ := hall c hc
    have hval : c.val.toNat = c.toNat := rfl
    rw [UInt8.lt_iff_toNat_lt, UInt8.lt_iff_toNat_lt, UInt32.toNat_toUInt8, hval,
      Nat.mod_eq_of_lt (Nat.lt_trans hlt (by decide))]
    exact ⟨hpos, hlt⟩
  dsimp only
  rw [htext]
  refine ⟨fun h => hne (List.map_eq_nil_iff.mp h), by simpa using hlength, ?_, ?_⟩
  · intro hzero
    obtain ⟨c, hc, hval⟩ := List.mem_map.mp hzero
    have hpos := (hbyte c hc).1
    rw [hval] at hpos
    exact absurd hpos (by decide)
  · intro b hb
    obtain ⟨c, hc, rfl⟩ := List.mem_map.mp hb
    exact (hbyte c hc).2

theorem ldkpLookupSystemErrorMessage_spec {messageId : Nat} {text : List UInt8}
    (h : text ∈ ldkpLookupSystemErrorMessage messageId) :
    text ≠ [] ∧ text.length < 128 ∧ 0 ∉ text ∧ ∀ c ∈ text, c < 0x80 := by
  obtain ⟨p, hp, rfl⟩ := Option.map_eq_some_iff.mp h
  exact systemErrorMessages_spec p (List.mem_of_find?_eq_some hp)

omit [DecidableEq α] in
theorem zero_notMem_map_fromAnsi {text : List UInt8} (h : 0 ∉ text) :
    0 ∉ text.map api.fromAnsi := by
  intro hzero
  obtain ⟨c, hc, hconverted⟩ := List.mem_map.mp hzero
  obtain rfl := (api.fromAnsi_eq_zero c).mp hconverted
  exact h hc

end Entries

/-! ## Routes of requests -/

section Routes

variable {α : Type} [Zero α] (api : Api α) (memory : Memory α) (allocateBuffer : Prop)
  [Decidable allocateBuffer] (nSize rounds : Nat)

/-- The text of the table, behind an entry of which nothing is delivered. -/
def fallback (s : State α) : Option (List UInt8) → Except Fault (Nat × State α)
  | none => s.failed .mrMidNotFound
  | some text => ldkpFormatString memory allocateBuffer nSize rounds api.fromAnsi text s

/-- What a route does. -/
def Route.run (s : State α) : Route α → Except Fault (Nat × State α)
  | failure error => s.failed error
  | entry e => ldkpFormatMessageFromResourceEntry memory allocateBuffer nSize api e s
  | system found builtin => do
    let (chars, s) ←
      (match found with
      | some e => ldkpFormatMessageFromResourceEntry memory allocateBuffer nSize api e s
      | none => s.failed .mrMidNotFound)
    if chars ≠ 0 then return (chars, s)
    else fallback api memory allocateBuffer nSize rounds s builtin
  | string text => ldkpFormatString memory allocateBuffer nSize rounds (fun c => c) text.val s

/-- A request is its route. -/
theorem formatMessage_eq (sources : Sources) (strings : Nat → Text α) (request : Request)
    (s : State α) :
    formatMessage api sources strings memory rounds request nSize s =
      (route sources strings request).run api memory request.AllocateBuffer nSize rounds s := by
  have hsystem : formatMessageFromSystem api sources memory rounds request nSize s =
      (systemRoute sources request).run api memory request.AllocateBuffer nSize rounds s := rfl
  unfold formatMessage route
  by_cases hmodule : request.FromHmodule
  · rw [if_pos hmodule, if_pos hmodule]
    by_cases hsource : request.lpSource = 0
    · rw [if_pos hsource, if_pos hsource]
      rfl
    · rw [if_neg hsource, if_neg hsource]
      dsimp only
      cases sources.ldkpFindMessageInMappedImage
          (ldkpNormalizeFormatMessageModuleHandle request.lpSource) request.dwMessageId
          (request.dwLanguageId % 2 ^ 16) with
      | some e => rfl
      | none =>
        dsimp only
        by_cases hfrom : request.FromSystem
        · rw [if_neg (not_not.mpr hfrom), if_pos hfrom]
          exact hsystem
        · rw [if_pos hfrom, if_neg hfrom]
          rfl
  · rw [if_neg hmodule, if_neg hmodule]
    by_cases hfrom : request.FromSystem
    · rw [if_pos hfrom, if_pos hfrom]
      exact hsystem
    · rw [if_neg hfrom, if_neg hfrom]
      by_cases hstring : request.FromString ∧ request.lpSource ≠ 0
      · rw [if_pos hstring, if_pos hstring]
        rfl
      · rw [if_neg hstring, if_neg hstring]
        rfl

/-- The entries of a route are as they are in a message table, and its text is one of the table. -/
def Route.WellFormed : Route α → Prop
  | entry e => 4 ≤ e.length ∧ e.length < 2 ^ 16
  | system found builtin => (∀ e ∈ found, 4 ≤ e.length ∧ e.length < 2 ^ 16) ∧
    ∀ text ∈ builtin, text ≠ [] ∧ text.length < 128 ∧ 0 ∉ text
  | _ => True

theorem route_wellFormed (sources : Sources) (strings : Nat → Text α) (request : Request) :
    (route sources strings request).WellFormed := by
  have hsystem : (systemRoute (α := α) sources request).WellFormed := by
    refine ⟨sources.cached_length _ _, ?_⟩
    intro text htext
    obtain ⟨hne, hlength, hzero, -⟩ := ldkpLookupSystemErrorMessage_spec htext
    exact ⟨hne, hlength, hzero⟩
  unfold route
  split
  · split
    · trivial
    · split
      · rename_i e he
        exact sources.mapped_length _ _ _ e he
      · split
        · exact hsystem
        · trivial
  · split
    · exact hsystem
    · split <;> trivial

end Routes

end Ldk.FormatMessage
