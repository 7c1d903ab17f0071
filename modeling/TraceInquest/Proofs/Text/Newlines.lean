import TraceInquest.FileSystem.Basic
import TraceInquest.Proofs.Except
import TraceInquest.Proofs.Text.Utf8

/-! # Newlines of two characters

Where every line feed has a carriage return in front of it, in bytes or in characters, reading a
text with unified newlines takes the carriage returns away again, and bytes that are no text before
are none after.

* **`addReturns`** — puts a carriage return in front of every line feed.
* **`encodes_addReturns`**, **`encodes_dropReturns`** — what happens to the bytes happens to the
  text that they encode.
* **`textOfBytes_addReturns`** — the text that is read stays the same. -/

namespace TraceInquest

namespace Text

/-! ## Carriage returns in front of line feeds -/

/-- The items with a carriage return in front of every line feed. -/
def addReturns {α : Type} [DecidableEq α] (carriage feed : α) (items : List α) : List α :=
  items.flatMap fun item => if item = feed then [carriage, feed] else [item]

/-- The items without carriage returns. -/
def dropReturns {α : Type} [DecidableEq α] (carriage : α) (items : List α) : List α :=
  items.flatMap fun item => if item = carriage then [] else [item]

section Items

variable {α : Type} [DecidableEq α] {carriage feed : α}

theorem length_addReturns (items : List α) :
    (addReturns carriage feed items).length = items.length + items.count feed := by
  induction items with
  | nil => rfl
  | cons item items ih =>
    rw [addReturns] at ih ⊢
    rw [List.flatMap_cons, List.length_append, ih, List.length_cons, List.count_cons]
    by_cases is_feed : item = feed
    · simp [is_feed]
      omega
    · simp [is_feed]
      omega

theorem dropReturns_of_not_mem {items : List α} (absent : carriage ∉ items) :
    dropReturns carriage items = items := by
  induction items with
  | nil => rfl
  | cons item items ih =>
    obtain ⟨other, absent⟩ := List.ne_and_not_mem_of_not_mem_cons absent
    rw [dropReturns, List.flatMap_cons, if_neg (Ne.symm other)]
    exact congrArg (item :: ·) (ih absent)

/-- Carriage returns that were put in front of line feeds are dropped again. -/
theorem dropReturns_addReturns (different : feed ≠ carriage) {items : List α}
    (absent : carriage ∉ items) :
    dropReturns carriage (addReturns carriage feed items) = items := by
  induction items with
  | nil => rfl
  | cons item items ih =>
    obtain ⟨other, absent⟩ := List.ne_and_not_mem_of_not_mem_cons absent
    have rest : dropReturns carriage (addReturns carriage feed items) = items := ih absent
    rw [dropReturns, addReturns] at rest ⊢
    rw [List.flatMap_cons, List.flatMap_append, rest]
    split
    · rename_i is_feed
      simp [different, is_feed]
    · simp [Ne.symm other]

end Items

/-- Unified newlines take away carriage returns that were put in front of line feeds. -/
theorem unifyNewlines_addReturns {text : List Char} (absent : '\r' ∉ text) :
    unifyNewlines (addReturns '\r' '\n' text) = text := by
  induction text with
  | nil => rfl
  | cons c text ih =>
    obtain ⟨other, absent⟩ := List.ne_and_not_mem_of_not_mem_cons absent
    have rest : unifyNewlines (addReturns '\r' '\n' text) = text := ih absent
    rw [addReturns] at rest ⊢
    rw [List.flatMap_cons]
    split
    · rename_i is_feed
      simp [unifyNewlines_cons, rest, is_feed]
    · simp [unifyNewlines_cons, rest, Ne.symm other]

theorem unifyNewlines_of_not_mem {text : List Char} (absent : '\r' ∉ text) :
    unifyNewlines text = text := by
  induction text with
  | nil => rfl
  | cons c text ih =>
    obtain ⟨other, absent⟩ := List.ne_and_not_mem_of_not_mem_cons absent
    rw [unifyNewlines_cons, if_neg (Ne.symm other), ih absent]

/-! ## Bytes and characters -/

namespace Utf8

variable {bytes : List UInt8} {text : List Char}

/-- Carriage returns in front of the line feeds of a text are encoded by carriage returns in front
of the line feeds among its bytes. -/
theorem encodes_addReturns (encodes : Encodes bytes text) :
    Encodes (addReturns 0x0D 0x0A bytes) (addReturns '\r' '\n' text) := by
  have newline : Encodes [0x0D, 0x0A] ['\r', '\n'] :=
    .cons (@EncodesChar.one 0x0D (by decide)) (.cons (@EncodesChar.one 0x0A (by decide)) .nil)
  exact encodes.replace (by decide) (by decide) newline

/-- A text without its carriage returns is encoded by the bytes without theirs. -/
theorem encodes_dropReturns (encodes : Encodes bytes text) :
    Encodes (dropReturns 0x0D bytes) (dropReturns '\r' text) :=
  encodes.replace (by decide) (by decide) .nil

theorem Encodes.text_unique {other : List Char} (encodes : Encodes bytes text)
    (other_encodes : Encodes bytes other) : other = text := by
  rw [← decode_eq_ok_iff] at encodes other_encodes
  rw [encodes] at other_encodes
  exact (Except.ok.inj other_encodes).symm

/-- Bytes without carriage returns encode a text without carriage returns. -/
theorem not_mem_of_encodes (encodes : Encodes bytes text) (absent : 0x0D ∉ bytes) :
    '\r' ∉ text := by
  have dropped := encodes_dropReturns encodes
  rw [dropReturns_of_not_mem absent] at dropped
  rw [← encodes.text_unique dropped]
  intro mem
  obtain ⟨c, -, mem⟩ := List.mem_flatMap.mp mem
  split at mem
  · simp at mem
  · rename_i other
    exact other (List.mem_singleton.mp mem).symm

/-- Bytes with carriage returns in front of their line feeds encode a text exactly if they do
without the carriage returns. -/
theorem encodes_addReturns_iff (absent : 0x0D ∉ bytes) {changed : List Char} :
    Encodes (addReturns 0x0D 0x0A bytes) changed ↔
      ∃ text, Encodes bytes text ∧ changed = addReturns '\r' '\n' text := by
  constructor
  · intro encodes
    have dropped := encodes_dropReturns encodes
    rw [dropReturns_addReturns (by decide) absent] at dropped
    exact ⟨_, dropped, (encodes_addReturns dropped).text_unique encodes⟩
  · rintro ⟨text, encodes, rfl⟩
    exact encodes_addReturns encodes

end Utf8

end Text

/-- Carriage returns in front of line feeds change nothing about the text that bytes spell, nor
about whether they spell one. -/
theorem textOfBytes_addReturns {bytes : List UInt8} (absent : 0x0D ∉ bytes) {text : String} :
    textOfBytes (Text.addReturns 0x0D 0x0A bytes) = .ok text ↔ textOfBytes bytes = .ok text := by
  rw [textOfBytes, textOfBytes, except_map_eq_ok, except_map_eq_ok]
  simp only [Text.Utf8.decode_eq_ok_iff, Text.Utf8.encodes_addReturns_iff absent]
  constructor
  · rintro ⟨changed, ⟨chars, encodes, rfl⟩, rfl⟩
    have returnless := Text.Utf8.not_mem_of_encodes encodes absent
    refine ⟨chars, encodes, ?_⟩
    rw [Text.unifyNewlines_addReturns returnless, Text.unifyNewlines_of_not_mem returnless]
  · rintro ⟨chars, encodes, rfl⟩
    have returnless := Text.Utf8.not_mem_of_encodes encodes absent
    refine ⟨_, ⟨chars, encodes, rfl⟩, ?_⟩
    rw [Text.unifyNewlines_addReturns returnless, Text.unifyNewlines_of_not_mem returnless]

end TraceInquest
