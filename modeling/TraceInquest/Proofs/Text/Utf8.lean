import TraceInquest.Text.Utf8

/-! # Texts and the bytes that encode them

Reading bytes as a text succeeds exactly if they are put together from the bytes of characters, and
then these characters are the text.

* **`EncodesChar`**, **`Encodes`** — the bytes of a character and of a text.
* **`IsUtf8`** — whether bytes encode some text.
* **`decode_eq_ok_iff`** — what is read from bytes is the text that they encode.
* **`Encodes.replace`** — a byte below 0x80 can be replaced along with its character. -/

namespace TraceInquest.Text.Utf8

/-- The bytes that encode a character: one byte below 0x80, or a lead byte and one to three bytes
that continue it. -/
inductive EncodesChar : List UInt8 → Char → Prop where
  | one {lead : UInt8} (ascii : lead < 0x80) : EncodesChar [lead] (Char.ofNat lead.toNat)
  | two {lead second : UInt8} (low : ¬lead < 0xC2) (high : lead < 0xE0)
      (second_ok : continues second = true) :
      EncodesChar [lead, second] (Char.ofNat (lead.toNat % 32 * 64 + payload second))
  | three {lead second third : UInt8} (low : ¬lead < 0xE0) (high : lead < 0xF0)
      (second_ok : admitsSecond lead second = true) (third_ok : continues third = true) :
      EncodesChar [lead, second, third]
        (Char.ofNat ((lead.toNat % 16 * 64 + payload second) * 64 + payload third))
  | four {lead second third fourth : UInt8} (low : ¬lead < 0xF0) (high : lead < 0xF5)
      (second_ok : admitsSecond lead second = true) (third_ok : continues third = true)
      (fourth_ok : continues fourth = true) :
      EncodesChar [lead, second, third, fourth]
        (Char.ofNat (((lead.toNat % 8 * 64 + payload second) * 64 + payload third) * 64 +
          payload fourth))

/-- Whether bytes encode a text: character by character. -/
inductive Encodes : List UInt8 → List Char → Prop where
  | nil : Encodes [] []
  | cons {group bytes : List UInt8} {c : Char} {text : List Char} (first : EncodesChar group c)
      (rest : Encodes bytes text) : Encodes (group ++ bytes) (c :: text)

theorem Encodes.append {first second : List UInt8} {text later : List Char}
    (front : Encodes first text) (back : Encodes second later) :
    Encodes (first ++ second) (text ++ later) := by
  induction front with
  | nil => exact back
  | cons char _ ih =>
    rw [List.append_assoc]
    exact .cons char ih

/-- What is read from bytes is a text that they encode. -/
theorem exists_encodes_of_decodeFrom {start : Nat} {done text : List Char} {bytes : List UInt8}
    (read : decodeFrom start done bytes = .ok text) :
    ∃ later, text = done.reverse ++ later ∧ Encodes bytes later := by
  -- reading goes on in four cases, one for each number of bytes of a character
  fun_induction decodeFrom start done bytes generalizing text
  case case1 => exact ⟨[], by simpa using (Except.ok.inj read).symm, .nil⟩
  case case2 ascii ih =>
    obtain ⟨later, rfl, encodes⟩ := ih read
    exact ⟨_ :: later, by simp, .cons (.one ascii) encodes⟩
  case case5 low high _ _ second_ok ih =>
    obtain ⟨later, rfl, encodes⟩ := ih read
    exact ⟨_ :: later, by simp, .cons (.two low high second_ok) encodes⟩
  case case9 low high _ second_ok _ _ third_ok ih =>
    obtain ⟨later, rfl, encodes⟩ := ih read
    exact ⟨_ :: later, by simp, .cons (.three low high second_ok third_ok) encodes⟩
  case case15 low high _ second_ok _ third_ok _ _ fourth_ok ih =>
    obtain ⟨later, rfl, encodes⟩ := ih read
    exact ⟨_ :: later, by simp, .cons (.four low high second_ok third_ok fourth_ok) encodes⟩
  all_goals cases read

theorem le_of_not_lt_of_le {byte low least : UInt8} (above : ¬byte < low) (le : least ≤ low) :
    least ≤ byte :=
  UInt8.le_trans le (UInt8.not_lt.mp above)

/-- A character is read from the bytes that encode it. -/
theorem decodeFrom_append {group : List UInt8} {c : Char} (encodes : EncodesChar group c)
    (start : Nat) (done : List Char) (bytes : List UInt8) :
    decodeFrom start done (group ++ bytes) =
      decodeFrom (start + group.length) (c :: done) bytes := by
  -- the first byte tells how many bytes the character has
  cases encodes with
  | one ascii =>
    rw [List.singleton_append, decodeFrom.eq_def]
    simp only [ascii, if_true]
    rfl
  | @two lead second low high second_ok =>
    have not_ascii : ¬lead < 0x80 := UInt8.not_lt.mpr (le_of_not_lt_of_le low (by decide))
    rw [List.cons_append, decodeFrom.eq_def]
    simp [not_ascii, low, high, second_ok]
  | @three lead second third low high second_ok third_ok =>
    have not_ascii : ¬lead < 0x80 := UInt8.not_lt.mpr (le_of_not_lt_of_le low (by decide))
    have not_start : ¬lead < 0xC2 := UInt8.not_lt.mpr (le_of_not_lt_of_le low (by decide))
    rw [List.cons_append, decodeFrom.eq_def]
    simp [not_ascii, not_start, low, high, second_ok, third_ok]
  | @four lead second third fourth low high second_ok third_ok fourth_ok =>
    have not_ascii : ¬lead < 0x80 := UInt8.not_lt.mpr (le_of_not_lt_of_le low (by decide))
    have not_start : ¬lead < 0xC2 := UInt8.not_lt.mpr (le_of_not_lt_of_le low (by decide))
    have not_two : ¬lead < 0xE0 := UInt8.not_lt.mpr (le_of_not_lt_of_le low (by decide))
    rw [List.cons_append, decodeFrom.eq_def]
    simp [not_ascii, not_start, not_two, low, high, second_ok, third_ok, fourth_ok]

theorem decodeFrom_of_encodes {bytes : List UInt8} {text : List Char}
    (encodes : Encodes bytes text) (start : Nat) (done : List Char) :
    decodeFrom start done bytes = .ok (done.reverse ++ text) := by
  induction encodes generalizing start done with
  | nil => rw [decodeFrom, List.append_nil]
  | cons first rest ih => rw [decodeFrom_append first, ih, List.reverse_cons, List.append_assoc]; rfl

/-- The text that is read from bytes is the one that they encode. -/
theorem decode_eq_ok_iff {bytes : List UInt8} {text : List Char} :
    decode bytes = .ok text ↔ Encodes bytes text := by
  constructor
  · intro read
    obtain ⟨later, rfl, encodes⟩ := exists_encodes_of_decodeFrom read
    exact encodes
  · exact fun encodes => decodeFrom_of_encodes encodes 0 []

/-- Whether bytes encode some text. -/
def IsUtf8 (bytes : List UInt8) : Prop := ∃ text, Encodes bytes text

/-! ## Characters of several bytes -/

theorem le_of_continues {byte : UInt8} (ok : continues byte = true) : 0x80 ≤ byte := by
  rw [continues, Bool.and_eq_true, decide_eq_true_eq] at ok
  exact ok.1

theorem continues_of_admitsSecond {lead second : UInt8} (ok : admitsSecond lead second = true) :
    continues second = true := by
  rw [admitsSecond, Bool.and_eq_true] at ok
  exact ok.1

/-- The second byte of a character of three bytes is not overlong. -/
theorem le_of_admitsSecond_three {lead second : UInt8} (low : ¬lead < 0xE0)
    (high : lead < 0xF0) (ok : admitsSecond lead second = true) :
    0x20 ≤ lead.toNat % 16 * 64 + payload second := by
  rw [admitsSecond, continues] at ok
  rw [payload]
  by_cases first : lead = 0xE0
  · subst first
    simp [UInt8.lt_iff_toNat_lt, UInt8.le_iff_toNat_le] at ok
    omega
  · simp [UInt8.lt_iff_toNat_lt, ← UInt8.toNat_inj] at low high first
    omega

/-- The second byte of a character of four bytes is not overlong. -/
theorem le_of_admitsSecond_four {lead second : UInt8} (low : ¬lead < 0xF0)
    (high : lead < 0xF5) (ok : admitsSecond lead second = true) :
    0x10 ≤ lead.toNat % 8 * 64 + payload second := by
  rw [admitsSecond, continues] at ok
  rw [payload]
  by_cases first : lead = 0xF0
  · subst first
    simp [UInt8.lt_iff_toNat_lt, UInt8.le_iff_toNat_le] at ok
    omega
  · simp [UInt8.lt_iff_toNat_lt, ← UInt8.toNat_inj] at low high first
    omega

/-- A character is encoded by one byte below 0x80, or by bytes none of which is below 0x80, and
then its number is not below 0x80 either. -/
theorem EncodesChar.ascii_or {group : List UInt8} {c : Char} (encodes : EncodesChar group c) :
    (∃ byte < 0x80, group = [byte] ∧ c = Char.ofNat byte.toNat) ∨
      (∀ byte ∈ group, 0x80 ≤ byte) ∧ ∃ n ≥ 0x80, c = Char.ofNat n := by
  cases encodes with
  | one ascii => exact .inl ⟨_, ascii, rfl, rfl⟩
  | @two lead second low high second_ok =>
    refine .inr ⟨?_, _, ?_, rfl⟩
    · have lead_high : 0x80 ≤ lead := le_of_not_lt_of_le low (by decide)
      simpa using ⟨lead_high, le_of_continues second_ok⟩
    · simp [UInt8.lt_iff_toNat_lt] at low high
      omega
  | @three lead second third low high second_ok third_ok =>
    have second_continues := continues_of_admitsSecond second_ok
    refine .inr ⟨?_, _, ?_, rfl⟩
    · have lead_high : 0x80 ≤ lead := le_of_not_lt_of_le low (by decide)
      simpa using ⟨lead_high, le_of_continues second_continues, le_of_continues third_ok⟩
    · have least := le_of_admitsSecond_three low high second_ok
      omega
  | @four lead second third fourth low high second_ok third_ok fourth_ok =>
    have second_continues := continues_of_admitsSecond second_ok
    refine .inr ⟨?_, _, ?_, rfl⟩
    · have lead_high : 0x80 ≤ lead := le_of_not_lt_of_le low (by decide)
      simpa using ⟨lead_high, le_of_continues second_continues, le_of_continues third_ok,
        le_of_continues fourth_ok⟩
    · have least := le_of_admitsSecond_four low high second_ok
      omega

/-! ## Characters of one byte -/

/-- A byte makes the character whose number it is. -/
theorem ofNat_toNat_inj {byte other : UInt8} :
    Char.ofNat byte.toNat = Char.ofNat other.toNat ↔ byte = other := by
  have number (byte : UInt8) : (Char.ofNat byte.toNat).toNat = byte.toNat := by
    have valid : byte.toNat.isValidChar := .inl (by have := byte.toNat_lt; omega)
    rw [Char.ofNat, dif_pos valid]
    rfl
  rw [← Char.toNat_inj, number, number, UInt8.toNat_inj]

/-- No number from 0x80 on makes a character of a byte below 0x80, NUL excepted. -/
theorem ofNat_ne_of_le {n : Nat} (large : 0x80 ≤ n) {byte : UInt8} (ascii : byte < 0x80)
    (not_nul : byte ≠ 0) : Char.ofNat n ≠ Char.ofNat byte.toNat := by
  by_cases valid : n.isValidChar
  · have byte_valid : byte.toNat.isValidChar := .inl (by have := byte.toNat_lt; omega)
    rw [Char.ofNat, dif_pos valid, Char.ofNat, dif_pos byte_valid, ne_eq, ← Char.toNat_inj]
    have less : byte.toNat < 0x80 := UInt8.lt_iff_toNat_lt.mp ascii
    show n ≠ byte.toNat
    omega
  · -- numbers of no character make NUL
    have nul : Char.ofNat n = Char.ofNat (0 : UInt8).toNat := by
      rw [Char.ofNat, dif_neg valid]
      rfl
    rw [nul]
    exact fun same => not_nul (ofNat_toNat_inj.mp same).symm

/-- Replacing a byte below 0x80 among the bytes of a text replaces the character that it encodes in
the text. -/
theorem Encodes.replace {bytes new : List UInt8} {text newText : List Char}
    (encodes : Encodes bytes text) {byte : UInt8} (ascii : byte < 0x80) (not_nul : byte ≠ 0)
    (new_encodes : Encodes new newText) :
    Encodes (bytes.flatMap fun other => if other = byte then new else [other])
      (text.flatMap fun c => if c = Char.ofNat byte.toNat then newText else [c]) := by
  induction encodes with
  | nil => exact .nil
  | @cons group bytes c text first _ ih =>
    rw [List.flatMap_append, List.flatMap_cons]
    refine Encodes.append ?_ ih
    rcases first.ascii_or with ⟨other, other_ascii, rfl, rfl⟩ | ⟨high, n, large, rfl⟩
    · rw [List.flatMap_singleton]
      simp only [ofNat_toNat_inj]
      split
      · exact new_encodes
      · exact .cons (.one other_ascii) .nil
    · -- none of several bytes is the one to replace
      have kept : group.flatMap (fun other => if other = byte then new else [other]) = group := by
        have others : ∀ other ∈ group, (if other = byte then new else [other]) = [other] := by
          intro other mem
          rw [if_neg]
          rintro rfl
          exact UInt8.not_lt.mpr (high _ mem) ascii
        rw [List.flatMap, List.map_congr_left others]
        exact List.flatMap_singleton' group
      rw [kept, if_neg (ofNat_ne_of_le large ascii not_nul), ← List.append_nil group]
      exact .cons first .nil

end TraceInquest.Text.Utf8
