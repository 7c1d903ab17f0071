import Mathlib.Data.List.DropRight
import TraceInquest.Proofs.Except
import TraceInquest.Proofs.Text.Newlines
import TraceInquest.Proofs.Text.Parts
import TraceInquest.Text.Blocks

/-! # What is handed out of a file that is read line by line

However long the blocks are, a text is handed out as a whole, line by line. Of bytes that are no
text, the complete lines of some beginning are handed out that is a text, and how far it reaches
depends on the blocks.

* **`Utf8.decodeBlock_of_encodes`** — in a block that belongs to a text there is no fault.
* **`readBlocks_of_encodes`**, **`exists_encodes_of_readBlocks`** — what is read from blocks.
* **`readLines_of_encodes`**, **`readLines_of_not_isUtf8`** — what is handed out.
* **`completeLines_isPrefix`** — of a longer beginning more lines are handed out. -/

namespace TraceInquest.Text

namespace Utf8

variable {bytes front back rest : List UInt8} {text chars : List Char}

/-! ## Beginnings of encoded texts -/

/-- Behind the bytes of a text reading goes on. -/
theorem decodeFrom_append_of_encodes (encodes : Encodes front text) (start : Nat)
    (done : List Char) (back : List UInt8) :
    decodeFrom start done (front ++ back) =
      decodeFrom (start + front.length) (text.reverse ++ done) back := by
  induction encodes generalizing start done with
  | nil => rfl
  | cons first _ ih =>
    rw [List.append_assoc, decodeFrom_append first, ih, List.length_append, Nat.add_assoc,
      List.reverse_cons, List.append_assoc]
    rfl

/-- Behind a beginning that is a text, the rest of a text is encoded. -/
theorem Encodes.exists_behind (encodes : Encodes (front ++ back) text)
    (front_encodes : Encodes front chars) :
    ∃ later, text = chars ++ later ∧ Encodes back later := by
  have read := decode_eq_ok_iff.mpr encodes
  rw [decode, decodeFrom_append_of_encodes front_encodes] at read
  obtain ⟨later, rfl, back_encodes⟩ := exists_encodes_of_decodeFrom read
  exact ⟨later, by simp, back_encodes⟩

/-- A beginning of the bytes of a text that is a text is a beginning of it. -/
theorem Encodes.isPrefix (encodes : Encodes bytes text) (front_encodes : Encodes front chars)
    (initial : front <+: bytes) : chars <+: text := by
  obtain ⟨back, rfl⟩ := initial
  obtain ⟨later, rfl, -⟩ := encodes.exists_behind front_encodes
  exact List.prefix_append _ _

/-- Wherever the bytes of a text are cut, the cut is between two characters or within one. -/
theorem Encodes.exists_cut (encodes : Encodes (front ++ back) text) :
    ∃ whole rest chars, front = whole ++ rest ∧ Encodes whole chars ∧
      (rest = [] ∨ ∃ lead begun more c, rest = lead :: begun ∧ more ≠ [] ∧
        EncodesChar (lead :: (begun ++ more)) c) := by
  generalize split : front ++ back = bytes at encodes
  induction encodes generalizing front with
  | nil =>
    obtain ⟨rfl, -⟩ := List.append_eq_nil_iff.mp split
    exact ⟨[], [], [], rfl, .nil, .inl rfl⟩
  | @cons group bytes c text first _ ih =>
    rcases List.append_eq_append_iff.mp split with ⟨more, rfl, -⟩ | ⟨front, rfl, rfl⟩
    · -- the cut is not behind the first character
      cases front with
      | nil => exact ⟨[], [], [], rfl, .nil, .inl rfl⟩
      | cons lead begun =>
        by_cases complete : more = []
        · subst complete
          rw [List.append_nil] at first
          exact ⟨lead :: begun ++ [], [], [c], by simp, .cons first .nil, .inl rfl⟩
        · exact ⟨[], _, [], rfl, .nil, .inr ⟨lead, begun, more, c, rfl, complete, first⟩⟩
    · obtain ⟨whole, rest, chars, rfl, whole_encodes, cut⟩ := ih rfl
      exact ⟨group ++ whole, rest, c :: chars, by simp, .cons first whole_encodes, cut⟩

/-- Bytes that end within a character are found to end too early. -/
theorem decodeFrom_of_cut {lead : UInt8} {begun more : List UInt8} {c : Char}
    (encodes : EncodesChar (lead :: (begun ++ more)) c) (nonempty : more ≠ []) (start : Nat)
    (done : List Char) :
    decodeFrom start done (lead :: begun) =
      .error ⟨lead, start, begun.length + 1, .truncated⟩ := by
  obtain ⟨next, more, rfl⟩ := List.exists_cons_of_ne_nil nonempty
  generalize joined : begun ++ next :: more = others at encodes
  -- the first byte tells how many others are due; fewer have begun
  rw [decodeFrom.eq_def]
  cases encodes with
  | one ascii => simp at joined
  | two low high second_ok =>
    have not_ascii : ¬lead < 0x80 := UInt8.not_lt.mpr (le_of_not_lt_of_le low (by decide))
    rcases begun with _ | ⟨second, begun⟩
    · simp [not_ascii, low, high]
    · simp at joined
  | three low high second_ok third_ok =>
    have not_ascii : ¬lead < 0x80 := UInt8.not_lt.mpr (le_of_not_lt_of_le low (by decide))
    have not_start : ¬lead < 0xC2 := UInt8.not_lt.mpr (le_of_not_lt_of_le low (by decide))
    rcases begun with _ | ⟨second, _ | ⟨third, begun⟩⟩
    · simp [not_ascii, not_start, low, high]
    · obtain ⟨rfl, -⟩ := List.cons.inj joined
      simp [not_ascii, not_start, low, high, second_ok]
    · simp at joined
  | four low high second_ok third_ok fourth_ok =>
    have not_ascii : ¬lead < 0x80 := UInt8.not_lt.mpr (le_of_not_lt_of_le low (by decide))
    have not_start : ¬lead < 0xC2 := UInt8.not_lt.mpr (le_of_not_lt_of_le low (by decide))
    have not_two : ¬lead < 0xE0 := UInt8.not_lt.mpr (le_of_not_lt_of_le low (by decide))
    rcases begun with _ | ⟨second, _ | ⟨third, _ | ⟨fourth, begun⟩⟩⟩
    · simp [not_ascii, not_start, not_two, low, high]
    · obtain ⟨rfl, -⟩ := List.cons.inj joined
      simp [not_ascii, not_start, not_two, low, high, second_ok]
    · obtain ⟨rfl, others_joined⟩ := List.cons.inj joined
      obtain ⟨rfl, -⟩ := List.cons.inj others_joined
      simp [not_ascii, not_start, not_two, low, high, second_ok, third_ok]
    · simp at joined

/-! ## Blocks -/

/-- In a block that belongs to a text there is no fault, and nothing is left over at the end. -/
theorem decodeBlock_of_encodes (encodes : Encodes (front ++ back) text) :
    ∃ chars rest later, decodeBlock front = .ok (chars, rest) ∧ text = chars ++ later ∧
      Encodes (rest ++ back) later ∧ (back = [] → rest = []) := by
  obtain ⟨whole, rest, chars, rfl, whole_encodes, cut⟩ := encodes.exists_cut
  rw [List.append_assoc] at encodes
  obtain ⟨later, rfl, rest_encodes⟩ := encodes.exists_behind whole_encodes
  have whole_read : decode whole = .ok chars := decode_eq_ok_iff.mpr whole_encodes
  refine ⟨chars, rest, later, ?_, rfl, rest_encodes, ?_⟩
  · rw [decodeBlock, decode, decodeFrom_append_of_encodes whole_encodes, Nat.zero_add,
      List.append_nil]
    rcases cut with rfl | ⟨lead, begun, more, c, rfl, nonempty, char⟩
    · simp [decodeFrom]
    · rw [decodeFrom_of_cut char nonempty]
      simp [whole_read, Except.map]
  · rintro rfl
    rcases cut with rfl | ⟨lead, begun, more, c, rfl, nonempty, char⟩
    · rfl
    · -- a text does not end within a character
      rw [List.append_nil, ← decode_eq_ok_iff, decode, decodeFrom_of_cut char nonempty]
        at rest_encodes
      cases rest_encodes

/-- The characters in a block are encoded by the bytes in front of those that are left over. -/
theorem exists_encodes_of_decodeBlock (read : decodeBlock bytes = .ok (chars, rest)) :
    ∃ whole, bytes = whole ++ rest ∧ Encodes whole chars := by
  unfold decodeBlock at read
  split at read
  · rename_i text decoded
    obtain ⟨rfl, rfl⟩ := Prod.mk.inj (Except.ok.inj read)
    exact ⟨bytes, by simp, decode_eq_ok_iff.mp decoded⟩
  · rename_i fault decoded
    dsimp only at read
    split at read
    · obtain ⟨text, decoded, same⟩ := except_map_eq_ok.mp read
      obtain ⟨rfl, rfl⟩ := Prod.mk.inj same
      exact ⟨_, (List.take_append_drop _ _).symm, decode_eq_ok_iff.mp decoded⟩
    · cases read

/-- In a block that is a text but for a byte at its end which begins no character, there is a
fault. -/
theorem decodeBlock_append_invalid (encodes : Encodes front text) :
    decodeBlock (front ++ [0xFF]) = .error ⟨0xFF, front.length, 1, .invalidStart⟩ := by
  rw [decodeBlock, decode, decodeFrom_append_of_encodes encodes, Nat.zero_add]
  simp [decodeFrom, isSurrogateStart]

/-- A text is the characters in a block, and nothing is left over. -/
theorem decodeBlock_eq_ok (encodes : Encodes bytes text) : decodeBlock bytes = .ok (text, []) := by
  rw [decodeBlock, decode_eq_ok_iff.mpr encodes]

end Utf8

section Blocks

variable {size : Nat} {bytes front back rest : List UInt8} {text done chars : List Char}
  {whole : Bool} {blocks : List (List UInt8)}

theorem flatten_range_blocks (size count : Nat) (bytes : List UInt8) :
    ((List.range count).map fun number => (bytes.drop (number * size)).take size).flatten =
      bytes.take (count * size) := by
  induction count with
  | zero => simp
  | succ count ih =>
    rw [List.range_succ, List.map_append, List.flatten_append, ih, Nat.succ_mul, List.take_add]
    simp

/-- The blocks hold all bytes in their order. -/
theorem flatten_blocks (positive : 0 < size) (bytes : List UInt8) :
    (Text.blocks size bytes).flatten = bytes := by
  have enough : bytes.length ≤ (bytes.length / size + 1) * size := by
    have := Nat.lt_div_mul_add positive (a := bytes.length)
    rw [Nat.succ_mul]
    omega
  rw [Text.blocks, flatten_range_blocks, List.take_of_length_le enough]

/-- Bytes that fill a block come in it. -/
theorem blocks_append (positive : 0 < size) (fills : front.length = size) (back : List UInt8) :
    Text.blocks size (front ++ back) = front :: Text.blocks size back := by
  subst fills
  rw [Text.blocks, List.length_append, Nat.add_div_left _ positive, List.range_succ_eq_map,
    List.map_cons, List.map_map, Text.blocks]
  congr 1
  · simp
  · refine List.map_congr_left fun number _ => ?_
    simp [Nat.succ_mul, Nat.add_comm _ front.length, ← List.drop_drop]

theorem blocks_of_length_lt (short : bytes.length < size) : Text.blocks size bytes = [bytes] := by
  rw [Text.blocks, Nat.div_eq_of_lt short]
  simp [List.take_of_length_le (Nat.le_of_lt short)]

/-! ## What is read -/

/-- A text is read to its end. -/
theorem readBlocks_of_encodes (encodes : Utf8.Encodes (rest ++ blocks.flatten) text)
    (empties : blocks = [] → rest = []) (done : List Char) :
    readBlocks done rest blocks = (done ++ text, true) := by
  induction blocks generalizing rest text done with
  | nil =>
    obtain rfl := empties rfl
    have nothing : [] = text := Except.ok.inj (Utf8.decode_eq_ok_iff.mpr encodes)
    simp [readBlocks, ← nothing]
  | cons block blocks ih =>
    rw [List.flatten_cons, ← List.append_assoc] at encodes
    obtain ⟨chars, rest', later, read, rfl, later_encodes, empties⟩ :=
      Utf8.decodeBlock_of_encodes encodes
    have nothing_left : blocks = [] → rest' = [] := fun last => empties (by simp [last])
    simp only [readBlocks, read, ih later_encodes nothing_left, List.append_assoc]

/-- What is read is some beginning that is a text; it is all of it if there was no fault. -/
theorem exists_encodes_of_readBlocks (read : readBlocks done rest blocks = (text, whole)) :
    ∃ taken chars, taken <+: rest ++ blocks.flatten ∧ Utf8.Encodes taken chars ∧
      text = done ++ chars ∧ (whole = true → taken = rest ++ blocks.flatten) := by
  induction blocks generalizing rest done with
  | nil =>
    obtain ⟨rfl, rfl⟩ := Prod.mk.inj read
    exact ⟨[], [], List.nil_prefix, .nil, by simp,
      fun ended => by simp [List.isEmpty_iff.mp ended]⟩
  | cons block blocks ih =>
    rw [readBlocks] at read
    cases decoded : Utf8.decodeBlock (rest ++ block) with
    | error fault =>
      rw [decoded] at read
      obtain ⟨rfl, rfl⟩ := Prod.mk.inj read
      exact ⟨[], [], List.nil_prefix, .nil, by simp, by simp⟩
    | ok result =>
      obtain ⟨first, rest'⟩ := result
      rw [decoded] at read
      obtain ⟨taken, chars, initial, encodes, rfl, all⟩ := ih read
      obtain ⟨front, split, front_encodes⟩ := Utf8.exists_encodes_of_decodeBlock decoded
      rw [List.flatten_cons, ← List.append_assoc, split, List.append_assoc]
      exact ⟨front ++ taken, first ++ chars, (List.prefix_append_right_inj _).mpr initial,
        front_encodes.append encodes, by rw [List.append_assoc], fun ended => by rw [all ended]⟩

/-! ## What is handed out -/

/-- Of a text all lines are handed out, however long the blocks are. -/
theorem readLines_of_encodes (positive : 0 < size) (encodes : Utf8.Encodes bytes text) :
    readLines size bytes = ⟨terminatedLines (unifyNewlines text), true⟩ := by
  have all_encodes : Utf8.Encodes ([] ++ (Text.blocks size bytes).flatten) text := by
    rwa [List.nil_append, flatten_blocks positive]
  rw [readLines, readBlocks_of_encodes all_encodes (fun _ => rfl), List.nil_append]

/-- Of bytes that are no text, the complete lines of some beginning are handed out. -/
theorem readLines_of_not_isUtf8 (positive : 0 < size) (no_text : ¬Utf8.IsUtf8 bytes) :
    ∃ taken text, taken <+: bytes ∧ Utf8.Encodes taken text ∧
      readLines size bytes = ⟨completeLines text, false⟩ := by
  rw [readLines]
  generalize read : readBlocks [] [] (Text.blocks size bytes) = result
  obtain ⟨text, whole⟩ := result
  obtain ⟨taken, chars, initial, encodes, rfl, all⟩ := exists_encodes_of_readBlocks read
  rw [List.nil_append, flatten_blocks positive] at initial
  rw [List.nil_append, flatten_blocks positive] at all
  cases whole with
  | true =>
    rw [all rfl] at encodes
    exact absurd ⟨_, encodes⟩ no_text
  | false => exact ⟨taken, text, initial, encodes, rfl⟩

/-- Where a text ends in the first block, no line is handed out. -/
theorem readLines_append_invalid (encodes : Utf8.Encodes front text)
    (short : (front ++ [0xFF]).length < size) : readLines size (front ++ [0xFF]) = ⟨[], false⟩ := by
  rw [readLines, blocks_of_length_lt short, readBlocks, List.nil_append,
    Utf8.decodeBlock_append_invalid encodes]
  rfl

/-- Where a text ends in the second block, the complete lines of the first one are handed out. -/
theorem readLines_append_append_invalid (fills : front.length = size)
    (encodes : Utf8.Encodes front text) (back_encodes : Utf8.Encodes back chars)
    (short : (back ++ [0xFF]).length < size) :
    readLines size (front ++ (back ++ [0xFF])) = ⟨completeLines text, false⟩ := by
  rw [readLines, blocks_append (by omega) fills, blocks_of_length_lt short, readBlocks,
    List.nil_append, Utf8.decodeBlock_eq_ok encodes]
  dsimp only
  rw [readBlocks, List.nil_append, Utf8.decodeBlock_append_invalid back_encodes]
  rfl

end Blocks

/-! ## Lines of longer beginnings -/

theorem terminatedLines_cons (c : Char) (text : List Char) :
    terminatedLines (c :: text) =
      if c == '\n' then [c] :: terminatedLines text
      else extendHead c (terminatedLines text) := rfl

/-- Behind a line feed a new line begins. -/
theorem terminatedLines_append (front back : List Char) :
    terminatedLines (front ++ ['\n']) ≠ [] ∧
      terminatedLines (front ++ '\n' :: back) =
        terminatedLines (front ++ ['\n']) ++ terminatedLines back := by
  induction front with
  | nil => exact ⟨List.cons_ne_nil _ _, rfl⟩
  | cons c front ih =>
    rw [List.cons_append, List.cons_append, terminatedLines_cons, terminatedLines_cons, ih.2]
    split
    · exact ⟨List.cons_ne_nil _ _, rfl⟩
    · obtain ⟨line, lines, cut⟩ := List.exists_cons_of_ne_nil ih.1
      rw [cut]
      exact ⟨List.cons_ne_nil _ _, rfl⟩

theorem upToLastFeed_of_not_mem {text : List Char} (unbroken : '\n' ∉ text) :
    upToLastFeed text = [] := by
  show text.rdropWhile (· != '\n') = []
  rw [List.rdropWhile_eq_nil_iff]
  intro c mem
  rw [bne_iff_ne]
  rintro rfl
  exact unbroken mem

theorem upToLastFeed_append (front back : List Char) :
    upToLastFeed (front ++ '\n' :: back) = front ++ '\n' :: upToLastFeed back := by
  simp only [upToLastFeed, List.reverse_append, List.reverse_cons, List.append_assoc,
    List.dropWhile_append]
  split
  · rename_i nothing
    simp [List.isEmpty_iff.mp nothing]
  · simp

theorem completeLines_of_not_mem {text : List Char} (absent : '\r' ∉ text) :
    completeLines text = terminatedLines (upToLastFeed text) := by
  have other_end : text.getLast? ≠ some '\r' := fun ends => absent (List.mem_of_getLast? ends)
  rw [completeLines, if_neg other_end, unifyNewlines_of_not_mem absent]

/-- Without carriage returns, the complete lines of a beginning are the first ones of the whole. -/
theorem completeLines_isPrefix {text front : List Char} (absent : '\r' ∉ text)
    (initial : front <+: text) : completeLines front <+: completeLines text := by
  obtain ⟨back, rfl⟩ := initial
  have front_absent : '\r' ∉ front := fun mem => absent (List.mem_append_left _ mem)
  rw [completeLines_of_not_mem absent, completeLines_of_not_mem front_absent]
  by_cases broken : '\n' ∈ front
  · -- up to the last line feed of the beginning the lines are the same
    obtain ⟨before, behind, rfl, unbroken⟩ := exists_append_cons_of_mem_last broken
    rw [upToLastFeed_append, upToLastFeed_of_not_mem unbroken, List.append_assoc, List.cons_append,
      upToLastFeed_append, (terminatedLines_append _ (upToLastFeed _)).2]
    exact List.prefix_append _ _
  · rw [upToLastFeed_of_not_mem broken]
    exact List.nil_prefix

/-! ## Carriage returns -/

/-- A beginning of a list with returns in front of its feeds is a beginning of the list with such
returns; at the end a return can be left over. -/
theorem exists_of_isPrefix_addReturns {α : Type} [DecidableEq α] {carriage feed : α}
    {items taken : List α} (initial : taken <+: addReturns carriage feed items) :
    ∃ front, front <+: items ∧ (taken = addReturns carriage feed front ∨
      taken = addReturns carriage feed front ++ [carriage]) := by
  induction items generalizing taken with
  | nil => exact ⟨[], List.nil_prefix, .inl (List.prefix_nil.mp initial)⟩
  | cons item items ih =>
    cases taken with
    | nil => exact ⟨[], List.nil_prefix, .inl rfl⟩
    | cons first taken =>
      rw [addReturns, List.flatMap_cons] at initial
      by_cases is_feed : item = feed
      · rw [if_pos is_feed, List.cons_append, List.cons_prefix_cons] at initial
        obtain ⟨rfl, initial⟩ := initial
        cases taken with
        | nil => exact ⟨[], List.nil_prefix, .inr rfl⟩
        | cons second taken =>
          obtain ⟨rfl, initial⟩ := List.cons_prefix_cons.mp initial
          obtain ⟨front, front_initial, split⟩ := ih initial
          refine ⟨item :: front, List.cons_prefix_cons.mpr ⟨rfl, front_initial⟩, ?_⟩
          simpa [addReturns, is_feed] using split
      · rw [if_neg is_feed, List.cons_append, List.cons_prefix_cons] at initial
        obtain ⟨rfl, initial⟩ := initial
        obtain ⟨front, front_initial, split⟩ := ih initial
        refine ⟨first :: front, List.cons_prefix_cons.mpr ⟨rfl, front_initial⟩, ?_⟩
        simpa [addReturns, is_feed] using split

theorem getLast?_addReturns_ne {text : List Char} (absent : '\r' ∉ text) :
    (addReturns '\r' '\n' text).getLast? ≠ some '\r' := by
  rcases List.eq_nil_or_concat text with rfl | ⟨front, c, rfl⟩
  · simp [addReturns]
  · have other : c ≠ '\r' := by
      rintro rfl
      exact absent (by simp)
    rw [addReturns, List.concat_eq_append, List.flatMap_append, List.flatMap_singleton]
    split
    · simp
    · simpa using other

/-- Carriage returns in front of line feeds do not matter for the complete lines, nor does one that
is left over at the end. -/
theorem completeLines_addReturns {text : List Char} (absent : '\r' ∉ text) :
    completeLines (addReturns '\r' '\n' text) = completeLines text ∧
      completeLines (addReturns '\r' '\n' text ++ ['\r']) = completeLines text := by
  rw [completeLines_of_not_mem absent]
  constructor
  · rw [completeLines, if_neg (getLast?_addReturns_ne absent), unifyNewlines_addReturns absent]
  · rw [completeLines, if_pos List.getLast?_concat, List.dropLast_concat,
      unifyNewlines_addReturns absent]

/-- Whether lines are the complete ones of a beginning of bytes that is a text. Of bytes that are no
text, such lines are handed out. -/
def StartsWithLines (bytes : List UInt8) (lines : List (List Char)) : Prop :=
  ∃ taken text, taken <+: bytes ∧ Utf8.Encodes taken text ∧ lines = completeLines text

section StartsWithLines

variable {bytes : List UInt8} {lines others : List (List Char)} {size : Nat}

theorem startsWithLines_readLines (positive : 0 < size) (no_text : ¬Utf8.IsUtf8 bytes) :
    StartsWithLines bytes (readLines size bytes).lines ∧ (readLines size bytes).whole = false := by
  obtain ⟨taken, text, initial, encodes, read⟩ := readLines_of_not_isUtf8 positive no_text
  rw [read]
  exact ⟨⟨taken, text, initial, encodes, rfl⟩, rfl⟩

/-- Of several beginnings, the lines of the longer one begin with those of the others. -/
theorem StartsWithLines.isPrefix_or_isPrefix (absent : 0x0D ∉ bytes)
    (starts : StartsWithLines bytes lines) (starts_others : StartsWithLines bytes others) :
    lines <+: others ∨ others <+: lines := by
  obtain ⟨taken, text, initial, encodes, rfl⟩ := starts
  obtain ⟨taken', text', initial', encodes', rfl⟩ := starts_others
  have returnless {front : List UInt8} {chars : List Char} (initial : front <+: bytes)
      (encodes : Utf8.Encodes front chars) : '\r' ∉ chars :=
    Utf8.not_mem_of_encodes encodes fun mem => absent (initial.subset mem)
  rcases List.prefix_or_prefix_of_prefix initial initial' with shorter | longer
  · exact .inl (completeLines_isPrefix (returnless initial' encodes')
      (encodes'.isPrefix encodes shorter))
  · exact .inr (completeLines_isPrefix (returnless initial encodes)
      (encodes.isPrefix encodes' longer))

/-- Lines that begin the bytes with carriage returns in front of the line feeds begin those without
them. -/
theorem StartsWithLines.of_addReturns (absent : 0x0D ∉ bytes)
    (starts : StartsWithLines (addReturns 0x0D 0x0A bytes) lines) :
    StartsWithLines bytes lines := by
  obtain ⟨taken, changed, initial, encodes, rfl⟩ := starts
  obtain ⟨front, front_initial, split⟩ := exists_of_isPrefix_addReturns initial
  have front_absent : 0x0D ∉ front := fun mem => absent (front_initial.subset mem)
  rcases split with rfl | rfl
  · obtain ⟨text, text_encodes, rfl⟩ := (Utf8.encodes_addReturns_iff front_absent).mp encodes
    have returnless := Utf8.not_mem_of_encodes text_encodes front_absent
    exact ⟨front, text, front_initial, text_encodes, (completeLines_addReturns returnless).1⟩
  · -- without its carriage returns, the text is encoded by the beginning
    have text_encodes := Utf8.encodes_dropReturns encodes
    rw [dropReturns, List.flatMap_append, ← dropReturns, dropReturns_addReturns (by decide)
      front_absent, List.flatMap_singleton, if_pos rfl, List.append_nil] at text_encodes
    generalize dropReturns '\r' changed = text at text_encodes
    have returnless := Utf8.not_mem_of_encodes text_encodes front_absent
    obtain ⟨later, rfl, later_encodes⟩ :=
      encodes.exists_behind (Utf8.encodes_addReturns text_encodes)
    obtain rfl : ['\r'] = later := Except.ok.inj (Utf8.decode_eq_ok_iff.mpr later_encodes)
    exact ⟨front, text, front_initial, text_encodes, (completeLines_addReturns returnless).2⟩

/-- Of a text the same lines are handed out with and without carriage returns. -/
theorem readLines_addReturns (positive : 0 < size) (absent : 0x0D ∉ bytes)
    (isUtf8 : Utf8.IsUtf8 bytes) :
    readLines size (addReturns 0x0D 0x0A bytes) = readLines size bytes := by
  obtain ⟨text, encodes⟩ := isUtf8
  have returnless := Utf8.not_mem_of_encodes encodes absent
  rw [readLines_of_encodes positive encodes,
    readLines_of_encodes positive (Utf8.encodes_addReturns encodes),
    unifyNewlines_addReturns returnless, unifyNewlines_of_not_mem returnless]

end StartsWithLines

theorem Utf8.isUtf8_addReturns_iff {bytes : List UInt8} (absent : 0x0D ∉ bytes) :
    Utf8.IsUtf8 (addReturns 0x0D 0x0A bytes) ↔ Utf8.IsUtf8 bytes := by
  constructor
  · rintro ⟨changed, encodes⟩
    obtain ⟨text, text_encodes, -⟩ := (Utf8.encodes_addReturns_iff absent).mp encodes
    exact ⟨text, text_encodes⟩
  · rintro ⟨text, encodes⟩
    exact ⟨_, Utf8.encodes_addReturns encodes⟩

end TraceInquest.Text
