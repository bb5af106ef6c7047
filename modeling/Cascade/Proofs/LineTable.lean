import Cascade.Proofs.LineLexing
import Mathlib.Algebra.Group.Nat.Defs

/-!
# The line table

The line table of a text has the byte offset at which each line starts: zero, and the place behind
every byte that is a line feed. No codepoint but the line feed has such a byte in its encoding, so a
scan over the bytes finds the lines of the text, and a line is what stands in the bytes between its
start and the next one. The lines tile the text.

The table counts its lines in 32 bits. A text of fewer than 2^32 bytes has at most 2^32 lines, and it
has so many only if it is all line feeds: of that text the table counts no line, and none is given
out.
-/
namespace Cascade

/-- The byte that encodes a line feed. -/
def lineFeedByte : UInt8 := 10

/-- The bytes that encode codepoints. -/
def utf8Bytes (text : List Char) : List UInt8 := text.flatMap String.utf8EncodeChar

/-- Codepoints are encoded one by one. -/
theorem utf8Bytes_cons (c : Char) (text : List Char) :
    utf8Bytes (c :: text) = String.utf8EncodeChar c ++ utf8Bytes text :=
  List.flatMap_cons

/-- The bytes of a string encode its codepoints. -/
theorem toUTF8_eq_utf8Bytes (text : String) :
    text.toUTF8.data.toList = utf8Bytes text.toList := by
  rw [String.toUTF8_eq_toByteArray, ← String.utf8Encode_toList]
  exact List.toList_data_toByteArray

/-- A text behind another one is encoded behind it. -/
theorem utf8Bytes_append (text more : List Char) :
    utf8Bytes (text ++ more) = utf8Bytes text ++ utf8Bytes more :=
  List.flatMap_append

/-- A byte of a codepoint is its code, if the codepoint is ASCII, or it is 128 or more. -/
theorem toNat_of_mem_utf8EncodeChar {c : Char} {byte : UInt8}
    (member : byte ∈ String.utf8EncodeChar c) : byte.toNat = c.toNat ∨ 128 ≤ byte.toNat := by
  have code : c.val.toNat = c.toNat := rfl
  rw [String.utf8EncodeChar, code] at member
  split at member
  · next ascii =>
    left
    rw [List.mem_singleton.mp member, UInt8.toNat_ofNat', Nat.mod_eq_of_lt (by omega)]
  · right
    split at member
    · simp only [List.mem_cons, List.not_mem_nil, or_false] at member
      rcases member with rfl | rfl <;> rw [UInt8.toNat_ofNat'] <;> omega
    · split at member
      · simp only [List.mem_cons, List.not_mem_nil, or_false] at member
        rcases member with rfl | rfl | rfl <;> rw [UInt8.toNat_ofNat'] <;> omega
      · simp only [List.mem_cons, List.not_mem_nil, or_false] at member
        rcases member with rfl | rfl | rfl | rfl <;> rw [UInt8.toNat_ofNat'] <;> omega

/-- Only a line feed has the byte of one in its encoding. -/
theorem lineFeed_of_mem {c : Char} (member : lineFeedByte ∈ String.utf8EncodeChar c) :
    c = '\n' := by
  obtain same | high := toNat_of_mem_utf8EncodeChar member
  · exact Char.toNat_inj.mp same.symm
  · exact absurd high (by decide)

/-- The offsets behind the line feeds among bytes that begin at an offset. -/
def offsetsBehind (offset : Nat) (bytes : List UInt8) : List Nat :=
  (bytes.zipIdx (offset + 1)).filterMap fun (byte, behind) =>
    if byte = lineFeedByte then some behind else none

/-- The offsets after the line feeds of a text are those behind the line feeds of its bytes. -/
theorem offsetsAfterLineFeeds_eq (offset : Nat) (text : List Char) :
    offsetsAfterLineFeeds offset text = offsetsBehind offset (utf8Bytes text) := by
  induction text generalizing offset with
  | nil => rfl
  | cons c text ih =>
    have behind : offset + 1 + (String.utf8EncodeChar c).length = offset + c.utf8Size + 1 := by
      rw [String.length_utf8EncodeChar]
      omega
    rw [offsetsBehind, utf8Bytes_cons, List.zipIdx_append, List.filterMap_append, behind]
    have later : offsetsAfterLineFeeds (offset + c.utf8Size) text = _ := ih (offset + c.utf8Size)
    rw [offsetsBehind] at later
    rw [← later, offsetsAfterLineFeeds]
    split
    · next feed =>
      subst feed
      rfl
    · next other =>
      have none : ∀ entry ∈ (String.utf8EncodeChar c).zipIdx (offset + 1),
          (if entry.1 = lineFeedByte then some entry.2 else none) = none := by
        intro entry member
        refine if_neg fun same => other (lineFeed_of_mem ?_)
        rw [← same]
        exact List.fst_mem_of_mem_zipIdx member
      rw [List.filterMap_eq_nil_iff.mpr none, List.nil_append]

/-- An offset is behind a line feed if the byte before it is one. -/
theorem mem_offsetsBehind {offset start : Nat} {bytes : List UInt8} :
    start ∈ offsetsBehind offset bytes ↔
      ∃ place, bytes[place]? = some lineFeedByte ∧ start = offset + place + 1 := by
  simp only [offsetsBehind, List.mem_filterMap, List.mem_zipIdx_iff_le_and_getElem?_sub,
    Option.ite_none_right_eq_some, Option.some.injEq]
  constructor
  · rintro ⟨⟨byte, behind⟩, ⟨late, there⟩, rfl, rfl⟩
    exact ⟨behind - (offset + 1), there, by omega⟩
  · rintro ⟨place, there, rfl⟩
    refine ⟨(lineFeedByte, offset + place + 1), ⟨by omega, ?_⟩, rfl, rfl⟩
    rw [show offset + place + 1 - (offset + 1) = place by omega]
    exact there

/-- The offsets behind line feeds are found in increasing order. -/
theorem pairwise_offsetsBehind (offset : Nat) (bytes : List UInt8) :
    (offsetsBehind offset bytes).Pairwise (· < ·) := by
  have places : ((bytes.zipIdx (offset + 1)).map Prod.snd).Pairwise (· < ·) := by
    rw [List.zipIdx_map_snd]
    exact List.pairwise_lt_range' 1
  rw [offsetsBehind, List.pairwise_filterMap]
  refine (List.pairwise_map.mp places).imp fun before start first later second => ?_
  obtain ⟨_, same⟩ := Option.ite_none_right_eq_some.mp first
  obtain ⟨_, also⟩ := Option.ite_none_right_eq_some.mp second
  rwa [Option.some.inj same, Option.some.inj also] at before

/-- There is an offset for every line feed. -/
theorem length_offsetsBehind (offset : Nat) (bytes : List UInt8) :
    (offsetsBehind offset bytes).length = bytes.count lineFeedByte := by
  have bytesOnly : (fun entry : UInt8 × Nat =>
      (if entry.1 = lineFeedByte then some entry.2 else none).isSome) =
      (· == lineFeedByte) ∘ Prod.fst := by
    funext entry
    by_cases feed : entry.1 = lineFeedByte <;> simp [feed]
  rw [offsetsBehind, List.length_filterMap_eq_countP]
  show List.countP (fun entry : UInt8 × Nat =>
    (if entry.1 = lineFeedByte then some entry.2 else none).isSome) _ = _
  rw [bytesOnly, ← List.countP_map, List.zipIdx_map_fst, List.count]

/-- Every line starts where the lines before it end. -/
theorem lineStarts_of_lines (offset : Nat) (text : List Char) :
    offset :: offsetsAfterLineFeeds offset text =
      (List.range (splitLines text).length).map fun index =>
        offset + (utf8Bytes ((splitLines text).take index).flatten).length := by
  induction text generalizing offset with
  | nil => rfl
  | cons c text ih =>
    have width : (String.utf8EncodeChar c).length = c.utf8Size := String.length_utf8EncodeChar c
    have later := ih (offset + c.utf8Size)
    by_cases feed : c = '\n'
    · subst feed
      rw [splitLines_cons, consLines_lineFeed, List.length_cons, List.range_succ_eq_map,
        List.map_cons, offsetsAfterLineFeeds, if_pos rfl, later, List.map_map]
      congr 1
      refine List.map_congr_left fun index _ => ?_
      simp only [Function.comp_apply, Nat.succ_eq_add_one, List.take_succ_cons, List.flatten_cons,
        utf8Bytes_append, utf8Bytes_cons, List.length_append, width]
      exact Nat.add_assoc ..
    · obtain ⟨line, others, lines⟩ := List.exists_cons_of_ne_nil (splitLines_ne_nil text)
      rw [lines, List.length_cons, List.range_succ_eq_map, List.map_cons] at later
      obtain ⟨_, later⟩ := List.cons.inj later
      rw [splitLines_cons, lines, consLines_cons feed, List.length_cons, List.range_succ_eq_map,
        List.map_cons, offsetsAfterLineFeeds, if_neg feed, later, List.map_map, List.map_map]
      congr 1
      refine List.map_congr_left fun index _ => ?_
      simp only [Function.comp_apply, Nat.succ_eq_add_one, List.take_succ_cons, List.flatten_cons,
        utf8Bytes_append, utf8Bytes_cons, List.length_append, List.cons_append, width]
      omega

/-- A line but the last ends at its only line feed, and the last has none. -/
theorem splitLines_ends {text line : List Char} {index : Nat}
    (found : (splitLines text)[index]? = some line) :
    if index + 1 < (splitLines text).length then ∃ body, '\n' ∉ body ∧ line = body ++ ['\n']
    else '\n' ∉ line := by
  induction text using lines_induction generalizing index with
  | last text oneLine =>
    rw [splitLines_oneLine oneLine] at found ⊢
    obtain ⟨inside, rfl⟩ := List.getElem?_eq_some_iff.mp found
    rw [List.length_singleton] at inside
    rw [List.length_singleton, if_neg (by omega), List.getElem_singleton]
    exact oneLine
  | line body rest oneLine ih =>
    rw [splitLines_lineFeed oneLine] at found ⊢
    have more := List.length_pos_of_ne_nil (splitLines_ne_nil rest)
    cases index with
    | zero =>
      cases found
      rw [List.length_cons, if_pos (by omega)]
      exact ⟨body, oneLine, rfl⟩
    | succ index =>
      rw [List.length_cons]
      simp only [Nat.add_lt_add_iff_right]
      exact ih found

namespace Source

variable {source : Source}

/-- The bytes of the text. -/
def bytes (source : Source) : List UInt8 := source.content.toUTF8.data.toList

/-- The lines start at zero and behind every line feed. -/
theorem lineStarts_eq (source : Source) :
    source.lineStarts = 0 :: offsetsBehind 0 source.bytes := by
  rw [lineStarts, offsetsAfterLineFeeds_eq, bytes, toUTF8_eq_utf8Bytes]
  rfl

/-- There are as many starts as lines. -/
theorem length_lineStarts (source : Source) : source.lineStarts.length = source.lines.length := by
  rw [lineStarts, lineStarts_of_lines, List.length_map, List.length_range]
  rfl

/-- There is a line more than there are line feeds. -/
theorem length_lines (source : Source) :
    source.lines.length = source.bytes.count lineFeedByte + 1 := by
  rw [← length_lineStarts, lineStarts_eq, List.length_cons, length_offsetsBehind]

/-- Where the line at an index starts; at the index behind the last line, where the text ends. -/
def lineBound (source : Source) (index : Nat) : Nat :=
  source.lineStarts.getD index source.bytes.length

/-- The lines before an index end where the one at the index starts. -/
theorem lineBound_eq (source : Source) (index : Nat) :
    source.lineBound index = (utf8Bytes (source.lines.take index).flatten).length := by
  rw [lineBound, lineStarts, lineStarts_of_lines, List.getD_eq_getElem?_getD, List.getElem?_map]
  by_cases inside : index < source.lines.length
  · have here : (List.range (splitLines source.chars).length)[index]? = some index :=
      List.getElem?_range inside
    rw [here, Option.map_some, Option.getD_some, Nat.zero_add]
    rfl
  · have beyond : source.lines.length ≤ index := Nat.le_of_not_lt inside
    have none : (List.range (splitLines source.chars).length)[index]? = none := by
      rw [List.getElem?_eq_none_iff, List.length_range]
      exact beyond
    have whole : source.lines.flatten = source.content.toList := flatten_splitLines source.chars
    rw [none, Option.map_none, Option.getD_none, List.take_of_length_le beyond, whole, bytes,
      toUTF8_eq_utf8Bytes]

/-- A line is what stands in the bytes between its start and the next one. -/
theorem line_slice {index : Nat} {text : String}
    (found : source.lineAt? (index + 1) = some text) :
    text.toUTF8.data.toList =
      source.bytes.extract (source.lineBound index) (source.lineBound (index + 1)) := by
  rw [lineAt?_eq_some] at found
  have split : source.lines =
      source.lines.take index ++ text.toList :: source.lines.drop (index + 1) := by
    obtain ⟨inside, same⟩ := List.getElem?_eq_some_iff.mp found
    rw [← same, ← List.drop_eq_getElem_cons inside, List.take_append_drop]
  have bytes : source.bytes = utf8Bytes (source.lines.take index).flatten ++
      (utf8Bytes text.toList ++ utf8Bytes (source.lines.drop (index + 1)).flatten) := by
    rw [← utf8Bytes_append, ← utf8Bytes_append, ← List.flatten_cons, ← List.flatten_append, ← split,
      Source.bytes, toUTF8_eq_utf8Bytes]
    exact congrArg utf8Bytes (flatten_splitLines source.chars).symm
  have stop : source.lineBound (index + 1) =
      (utf8Bytes (source.lines.take index).flatten ++ utf8Bytes text.toList).length := by
    rw [lineBound_eq, List.take_add_one, found, Option.toList_some, List.flatten_append,
      List.flatten_singleton, utf8Bytes_append]
  rw [toUTF8_eq_utf8Bytes, List.extract_eq_drop_take', stop, lineBound_eq, bytes,
    ← List.append_assoc, List.take_left, List.drop_left]

/-- The lines, one after the other, are the text. -/
theorem join_lines (source : Source) :
    String.join (source.lines.map String.ofList) = source.content := by
  have whole : source.lines.flatten = source.content.toList := flatten_splitLines source.chars
  rw [← String.toList_inj, String.toList_join, List.flatMap_map, ← whole]
  simp only [String.toList_ofList, List.flatMap_id']

/-- No more lines are counted than there are. -/
theorem lineCount_le (source : Source) : source.lineCount ≤ source.lines.length := Nat.mod_le _ _

/-- A line is given out exactly if it is there and counted. -/
theorem line_eq_ok {number : Nat} {text : String} :
    source.line number = .ok text ↔
      number ≤ source.lineCount ∧ source.lineAt? number = some text := by
  unfold line
  by_cases counted : number ≤ source.lineCount
  · rw [if_pos counted]
    cases found : source.lineAt? number with
    | none => simp
    | some line => simp [counted]
  · simp [counted]

/-- A line that is counted is there. -/
theorem lineAt?_of_counted {index : Nat} (counted : index + 1 ≤ source.lineCount) :
    ∃ text, source.lineAt? (index + 1) = some text := by
  have inside : index < source.lines.length := Nat.lt_of_lt_of_le counted source.lineCount_le
  refine ⟨String.ofList source.lines[index], ?_⟩
  rw [lineAt?, List.getElem?_eq_getElem inside]
  rfl

/-- No line is given out exactly if the number is zero or not counted, and the error says so. -/
theorem line_eq_error {number : Nat} {error : SourceError} :
    source.line number = .error error ↔
      (number = 0 ∨ source.lineCount < number) ∧
        error = .lineOutOfRange number source.lineCount := by
  unfold line
  by_cases counted : number ≤ source.lineCount
  · rw [if_pos counted]
    cases number with
    | zero => simp [lineAt?, eq_comm]
    | succ index =>
      obtain ⟨text, found⟩ := lineAt?_of_counted counted
      simp [found, Nat.not_lt.mpr counted]
  · simp [counted, Nat.lt_of_not_le counted, eq_comm]

/-- Where all lines are counted, the lines given out one after the other are the text. -/
theorem line_range (few : source.lines.length < 2 ^ 32) :
    (List.range' 1 source.lineCount).map source.line =
      (source.lines.map String.ofList).map .ok := by
  rw [lineCount_eq few]
  refine List.ext_getElem (by simp) fun index inside _ => ?_
  simp only [List.getElem_map, List.getElem_range', Nat.one_mul]
  apply line_of_few few
  rw [Nat.add_comm 1 index, lineAt?_eq_some, String.toList_ofList]
  exact List.getElem?_eq_getElem _

/-- A text has as many bytes as its size says. -/
theorem length_bytes (source : Source) :
    source.bytes.length = source.content.utf8ByteSize := by
  rw [bytes, String.toUTF8_eq_toByteArray, Array.length_toList]
  exact String.size_toByteArray

/-- The starts of the lines of a text of fewer than 2^32 bytes fit 32 bits. -/
theorem lineStarts_fit (small : source.content.utf8ByteSize < 2 ^ 32) :
    ∀ start ∈ source.lineStarts, start < 2 ^ 32 := by
  intro start member
  have size := source.length_bytes
  rw [lineStarts_eq, List.mem_cons, mem_offsetsBehind] at member
  obtain rfl | ⟨place, there, rfl⟩ := member
  · exact Nat.two_pow_pos 32
  · obtain ⟨inside, _⟩ := List.getElem?_eq_some_iff.mp there
    omega

/-- A text of fewer than 2^32 bytes has as many lines exactly if it is all line feeds. No line of it
is counted then. -/
theorem lines_too_many (small : source.content.utf8ByteSize < 2 ^ 32)
    (many : 2 ^ 32 ≤ source.lines.length) :
    source.lines.length = 2 ^ 32 ∧ source.lineCount = 0 ∧
      source.bytes = List.replicate source.bytes.length lineFeedByte := by
  have size := source.length_bytes
  have feeds := List.count_le_length (a := lineFeedByte) (l := source.bytes)
  have lines := source.length_lines
  have all : source.bytes.count lineFeedByte = source.bytes.length := by omega
  have same := List.count_eq_length.mp all
  have full : source.lines.length = 2 ^ 32 := by omega
  refine ⟨full, ?_, List.eq_replicate_of_mem fun byte member => (same byte member).symm⟩
  rw [lineCount, full]
  exact Nat.mod_self UInt32.size

end Source

/-- The line table of a text of fewer than 2^32 bytes begins with zero, is strictly increasing, and
goes on with the place behind every byte that is a line feed; its starts are numbers of 32 bits. A
line that is given out is what stands between its start and the next one; every line but the last
ends at its only line feed, and the last has none. A number that is zero or not counted is refused.
If there are fewer than 2^32 lines, all of them are counted, and given out one after the other they
are the text. If not, the text is all line feeds, and none of its lines is counted. -/
theorem line_table_partitions_text (source : Source)
    (small : source.content.utf8ByteSize < 2 ^ 32) :
    source.lineStarts.head? = some 0 ∧ source.lineStarts.Pairwise (· < ·) ∧
    (∀ start, start ∈ source.lineStarts.tail ↔
      ∃ place, source.bytes[place]? = some lineFeedByte ∧ start = place + 1) ∧
    source.lineStarts.tail.length = source.bytes.count lineFeedByte ∧
    (∀ start ∈ source.lineStarts, start < 2 ^ 32) ∧
    (∀ index text, source.line (index + 1) = .ok text →
      text.toUTF8.data.toList =
        source.bytes.extract (source.lineBound index) (source.lineBound (index + 1)) ∧
      if index + 1 < source.lineStarts.length then
        ∃ body, '\n' ∉ body ∧ text.toList = body ++ ['\n']
      else '\n' ∉ text.toList) ∧
    (∀ number error, source.line number = .error error ↔
      (number = 0 ∨ source.lineCount < number) ∧
        error = .lineOutOfRange number source.lineCount) ∧
    (source.lineStarts.length < 2 ^ 32 →
      source.lineCount = source.lineStarts.length ∧
      ∃ texts, (List.range' 1 source.lineCount).map source.line = texts.map .ok ∧
        String.join texts = source.content) ∧
    (2 ^ 32 ≤ source.lineStarts.length →
      source.lineStarts.length = 2 ^ 32 ∧ source.lineCount = 0 ∧
      source.bytes = List.replicate source.bytes.length lineFeedByte) := by
  have starts := source.lineStarts_eq
  have increasing : source.lineStarts.Pairwise (· < ·) := by
    rw [starts, List.pairwise_cons]
    refine ⟨fun start member => ?_, pairwise_offsetsBehind 0 source.bytes⟩
    obtain ⟨place, _, rfl⟩ := mem_offsetsBehind.mp member
    exact Nat.succ_pos _
  rw [source.length_lineStarts]
  refine ⟨rfl, increasing, ?_, ?_, Source.lineStarts_fit small, ?_,
    fun number error => Source.line_eq_error, ?_, Source.lines_too_many small⟩
  · intro start
    rw [starts, List.tail_cons, mem_offsetsBehind]
    simp only [Nat.zero_add]
  · rw [starts, List.tail_cons, length_offsetsBehind]
  · intro index text given
    obtain ⟨_, found⟩ := Source.line_eq_ok.mp given
    exact ⟨Source.line_slice found, splitLines_ends (Source.lineAt?_eq_some.mp found)⟩
  · intro few
    exact ⟨Source.lineCount_eq few, _, Source.line_range few, source.join_lines⟩

/-- A string of two-byte codepoints between line feeds: the starts count bytes, the line behind the
last line feed is empty, and there is no other. -/
theorem line_table_of_accents :
    let source : Source := ⟨0, "t.sb", "\n\"é\"\n"⟩
    source.line 2 = .ok "\"é\"\n" ∧ "\"é\"\n".toUTF8.data.toList = source.bytes.extract 1 6 ∧
      source.line 3 = .ok "" ∧ '\n' ∉ "".toList ∧
      source.line 4 = .error (.lineOutOfRange 4 3) ∧
      source.content.utf8ByteSize < 2 ^ 32 ∧ (∀ start ∈ source.lineStarts, start < 2 ^ 32) ∧
      source.lineStarts.length < 2 ^ 32 ∧ source.lineCount = source.lineStarts.length := by
  intro source
  have small : source.content.utf8ByteSize < 2 ^ 32 := by decide
  obtain ⟨_, _, _, _, fit, lines, errors, counted, _⟩ := line_table_partitions_text source small
  have second : source.line 2 = .ok "\"é\"\n" := by decide +kernel
  have third : source.line 3 = .ok "" := by decide +kernel
  have slice := (lines 1 _ second).1
  have bounds : source.lineBound 1 = 1 ∧ source.lineBound 2 = 6 := by decide +kernel
  have last := (lines 2 _ third).2
  have starts : source.lineStarts.length = 3 := by decide +kernel
  have few : source.lineStarts.length < 2 ^ 32 := by
    rw [starts]
    decide
  have count := (counted few).1
  rw [bounds.1, bounds.2] at slice
  rw [starts, if_neg (by decide)] at last
  refine ⟨second, slice, third, last, (errors 4 _).mpr ⟨.inr ?_, ?_⟩, small, fit, few, count⟩
  · rw [count, starts]
    decide
  · rw [count, starts]

namespace Source

/-- A source of so many line feeds. -/
def lineFeeds (count : Nat) : Source := ⟨0, "t.sb", String.ofList (List.replicate count '\n')⟩

/-- Its text is the line feeds. -/
theorem chars_lineFeeds (count : Nat) : (lineFeeds count).chars = List.replicate count '\n' :=
  String.toList_ofList

/-- It has a byte for every line feed. -/
theorem bytes_lineFeeds (count : Nat) :
    (lineFeeds count).bytes = List.replicate count lineFeedByte := by
  rw [bytes, toUTF8_eq_utf8Bytes]
  show utf8Bytes (lineFeeds count).chars = _
  rw [chars_lineFeeds]
  induction count with
  | zero => rfl
  | succ count ih =>
    rw [List.replicate_succ, utf8Bytes_cons, ih, List.replicate_succ]
    rfl

/-- It has a line more than line feeds. -/
theorem length_lines_lineFeeds (count : Nat) : (lineFeeds count).lines.length = count + 1 := by
  rw [length_lines, bytes_lineFeeds, List.count_replicate_self]

/-- It has so many bytes. -/
theorem size_lineFeeds (count : Nat) : (lineFeeds count).content.utf8ByteSize = count := by
  rw [← length_bytes, bytes_lineFeeds, List.length_replicate]

end Source

/-- A text of 2^32 - 1 line feeds has 2^32 lines, but the line table counts none: its first line is
refused, and the lines that are given out are not the text. -/
theorem full_line_table_counts_no_line :
    (Source.lineFeeds (2 ^ 32 - 1)).content.utf8ByteSize < 2 ^ 32 ∧
    (Source.lineFeeds (2 ^ 32 - 1)).lineStarts.length = 2 ^ 32 ∧
    (Source.lineFeeds (2 ^ 32 - 1)).lineCount = 0 ∧
    (Source.lineFeeds (2 ^ 32 - 1)).line 1 = .error (.lineOutOfRange 1 0) ∧
    ¬ ∃ texts, (List.range' 1 (Source.lineFeeds (2 ^ 32 - 1)).lineCount).map
        (Source.lineFeeds (2 ^ 32 - 1)).line = texts.map .ok ∧
      String.join texts = (Source.lineFeeds (2 ^ 32 - 1)).content := by
  obtain ⟨count, full⟩ : ∃ count, count = 2 ^ 32 - 1 := ⟨_, rfl⟩
  rw [← full]
  have lines := Source.length_lines_lineFeeds count
  have size := Source.size_lineFeeds count
  have small : (Source.lineFeeds count).content.utf8ByteSize < 2 ^ 32 := by omega
  obtain ⟨whole, none, _⟩ := Source.lines_too_many small (by omega)
  refine ⟨small, ?_, none, ?_, ?_⟩
  · rw [Source.length_lineStarts, whole]
  · rw [Source.line_eq_error, none]
    exact ⟨.inr Nat.one_pos, rfl⟩
  · rintro ⟨texts, given, joined⟩
    rw [none, List.range'_zero, List.map_nil, eq_comm, List.map_eq_nil_iff] at given
    rw [given] at joined
    rw [← joined] at size
    have empty : String.utf8ByteSize (String.join []) = 0 := rfl
    omega

end Cascade
