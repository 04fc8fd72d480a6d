import CanonicalSql.Proofs.Lexing.Tiling
import Mathlib.Data.FinEnum
import Mathlib.Data.List.TakeWhile

/-! Places in a text, counted in three ways.  A place of a text is known from the characters before it alone:
from the number of their line feeds, and from the number of those behind the last of them.  The lexer keeps
lines and columns in words of 32 bits, and it moves them over the bytes of the UTF-8 form one at a time or
over a stretch of text at once; as long as words can count the lines and the columns, both ways lead to the
same place. -/

namespace CanonicalSql

/-! ### The characters before a place -/

/-- The characters behind the last line feed. -/
def lastLine (cs : List Char) : List Char := (cs.reverse.takeWhile (· != '\n')).reverse

@[simp] theorem lastLine_concat (cs : List Char) (c : Char) :
    lastLine (cs ++ [c]) = if c = '\n' then [] else lastLine cs ++ [c] := by
  by_cases h : c = '\n' <;> simp [lastLine, h]

theorem lastLine_append_of_not_mem (cs : List Char) {ds : List Char} (h : '\n' ∉ ds) :
    lastLine (cs ++ ds) = lastLine cs ++ ds := by
  have other : ∀ c ∈ ds.reverse, (c != '\n') = true := fun c hc => by
    simpa using fun (feed : c = '\n') => h (List.mem_reverse.1 (feed ▸ hc))
  rw [lastLine, List.reverse_append, List.takeWhile_append_of_pos other]
  simp [lastLine]

theorem length_lastLine_le (cs : List Char) : (lastLine cs).length ≤ cs.length := by
  rw [lastLine, List.length_reverse]
  exact (List.takeWhile_prefix _).length_le.trans_eq List.length_reverse

namespace Position

/-- Whether `p` is the place behind the characters at the front of a text. -/
structure Behind (p : Position) (cs : List Char) : Prop where
  line : p.line.toNat = 1 + cs.count '\n'
  column : p.column.toNat = 1 + (lastLine cs).length
  offset : p.offset = (String.ofList cs).utf8ByteSize

/-- Whether `p` is the place behind some characters at the front of the text. -/
def In (text : String) (p : Position) : Prop :=
  ∃ before behind, text.toList = before ++ behind ∧ p.Behind before

variable {p q : Position} {cs ds : List Char}

theorem Behind.unique (h : p.Behind cs) (h' : q.Behind cs) : p = q :=
  Position.ext (UInt32.toNat_inj.1 (h.line.trans h'.line.symm))
    (UInt32.toNat_inj.1 (h.column.trans h'.column.symm)) (h.offset.trans h'.offset.symm)

/-- A word that is less than another number counts one more. -/
theorem toNat_add_one {w : UInt32} (h : w.toNat + 1 < UInt32.size) : (w + 1).toNat = w.toNat + 1 := by
  rw [UInt32.toNat_add]
  exact Nat.mod_eq_of_lt h

/-- The two ways over a character differ at the last column only. -/
theorem stride_eq_advance (h : p.column ≠ lastNumber) (s : Stride) : p.stride s = p.advance s.char := by
  cases s with
  | alone c => rfl
  | within c => rw [stride, leap, if_neg h, Stride.char_within, advance]

/-- However a character is passed over, if words can count the lines and columns before it and one more
then the place behind it is as its characters tell. -/
theorem Behind.stride (h : p.Behind cs) (s : Stride) (short : cs.length + 2 < UInt32.size) :
    (p.stride s).Behind (cs ++ [s.char]) := by
  have lines := List.count_le_length (a := '\n') (l := cs)
  have columns := length_lastLine_le cs
  have line : (p.line + 1).toNat = 1 + cs.count '\n' + 1 := by
    rw [toNat_add_one (by rw [h.line]; omega), h.line]
  have column : (p.column + 1).toNat = 1 + (lastLine cs).length + 1 := by
    rw [toNat_add_one (by rw [h.column]; omega), h.column]
  have size : (p.stride s).offset = (String.ofList (cs ++ [s.char])).utf8ByteSize := by
    rw [offset_stride, h.offset, String.ofList_append, String.utf8ByteSize_append,
      ← String.singleton_eq_ofList, String.utf8ByteSize_singleton]
  have more : p.column ≠ lastNumber := fun last => by
    have full : lastNumber.toNat = 1 + (lastLine cs).length := last ▸ h.column
    have most : lastNumber.toNat = UInt32.size - 1 := rfl
    omega
  by_cases feed : s.char = '\n'
  · refine ⟨?_, ?_, size⟩
    · rw [stride_eq_advance more, advance, if_pos feed, line, feed, List.count_append,
        List.count_singleton_self, Nat.add_assoc]
    · rw [stride_eq_advance more, advance, if_pos feed, lastLine_concat, if_pos feed]
      rfl
  · refine ⟨?_, ?_, size⟩
    · rw [stride_eq_advance more, advance, if_neg feed, h.line, List.count_append,
        List.count_eq_zero_of_not_mem (l := [s.char]) (by simpa using Ne.symm feed), Nat.add_zero]
    · rw [stride_eq_advance more, advance, if_neg feed, column, lastLine_concat, if_neg feed,
        List.length_append, List.length_singleton, Nat.add_assoc]

theorem Behind.across (h : p.Behind cs) (ss : List Stride) (short : cs.length + ss.length + 1 < UInt32.size) :
    (p.across ss).Behind (cs ++ ss.map Stride.char) := by
  induction ss generalizing p cs with
  | nil => simpa using h
  | cons s ss ih =>
    rw [List.length_cons] at short
    have next := ih (h.stride s (by omega)) (by rw [List.length_append, List.length_singleton]; omega)
    rwa [List.append_assoc] at next

theorem behind_start : start.Behind [] := ⟨rfl, rfl, rfl⟩

/-- Where the characters at the front of a text end can be told from them at once, if words can count its
lines and columns. -/
theorem Reaches.behind (h : start.Reaches cs p) (short : cs.length + 1 < UInt32.size) : p.Behind cs := by
  obtain ⟨ss, rfl, rfl⟩ := h
  rw [List.length_map] at short
  exact behind_start.across ss (by simpa using short)

/-- What is passed over from the start of a text with fewer characters than the last line or column leads to
a place in it. -/
theorem Reaches.in_text {text : String} (h : start.Reaches cs p) (short : text.length < UInt32.size - 1)
    (split : text.toList = cs ++ ds) : p.In text := by
  refine ⟨cs, ds, split, h.behind ?_⟩
  have fewer : cs.length ≤ text.length := by
    rw [← String.length_toList, split, List.length_append]
    exact Nat.le_add_right _ _
  omega

/-! ### Bytes and stretches -/

end Position

/-- Whether a byte continues the character that the bytes before it have started. -/
def isContinuation (b : UInt8) : Bool := b &&& 0xC0 = 0x80

namespace Position

/-- The place behind one byte: only the first byte of a character counts in a column. -/
def byte (p : Position) (b : UInt8) : Position :=
  if b = 10 then ⟨p.line + 1, 1, p.offset + 1⟩
  else if isContinuation b then { p with offset := p.offset + 1 }
  else ⟨p.line, p.column + 1, p.offset + 1⟩

/-- The place behind some bytes, one at a time. -/
def bytes (p : Position) (bs : List UInt8) : Position := bs.foldl byte p

/-- A column further on, or the last one that a word can hold. -/
def columnBehind (column : UInt32) (count : Nat) : UInt32 :=
  UInt32.ofNat (min (column.toNat + count) (UInt32.size - 1))

/-- The line and the column behind a stretch of text: each line feed is searched for, and the characters
behind the last of them are counted. -/
def lines (line column : UInt32) (cs : List Char) : UInt32 × UInt32 :=
  match h : cs.dropWhile (· != '\n') with
  | [] => (line, columnBehind column cs.length)
  | _ :: rest => lines (line + 1) 1 rest
termination_by cs.length
decreasing_by
  have shorter := (List.dropWhile_suffix (· != '\n') (l := cs)).length_le
  rw [h, List.length_cons] at shorter
  omega

/-- The place behind a stretch of text, all at once. -/
def stretch (p : Position) (cs : List Char) : Position :=
  let (line, column) := lines p.line p.column cs
  ⟨line, column, p.offset + (String.ofList cs).utf8ByteSize⟩

end Position

/-- The bytes of the UTF-8 form of some characters. -/
def utf8 (cs : List Char) : List UInt8 := cs.flatMap String.utf8EncodeChar

/-! ### Byte by byte -/

/-- A byte below 128, and each of the bytes that start a longer form, counts in a column; those that start
a longer form are no line feeds. -/
theorem first_byte : ∀ x : UInt8,
    (x ≤ 127 → isContinuation x = false) ∧
    (isContinuation (x &&& 31 ||| 192) = false ∧ x &&& 31 ||| 192 ≠ 10) ∧
    (isContinuation (x &&& 15 ||| 224) = false ∧ x &&& 15 ||| 224 ≠ 10) ∧
    (isContinuation (x &&& 7 ||| 240) = false ∧ x &&& 7 ||| 240 ≠ 10) := by
  decide +kernel

/-- The bytes behind the first one of a longer form continue it. -/
theorem further_byte : ∀ x : UInt8,
    isContinuation (x &&& 63 ||| 128) = true ∧ x &&& 63 ||| 128 ≠ 10 := by
  decide +kernel

/-- The first byte of a character counts in a column and tells whether it is a line feed, and the other
bytes continue it. -/
theorem utf8_char (c : Char) : ∃ b bs, String.utf8EncodeChar c = b :: bs ∧
    isContinuation b = false ∧ (b = 10 ↔ c = '\n') ∧
    ∀ b' ∈ bs, isContinuation b' = true ∧ b' ≠ 10 := by
  have other : c.utf8Size ≠ 1 → c ≠ '\n' := by
    rintro long rfl
    exact long rfl
  rcases c.utf8Size_eq with one | two | three | four
  · have small : c.val.toNat ≤ 127 := UInt32.le_iff_toNat_le.1 (Char.utf8Size_eq_one_iff.1 one)
    have same : c.val.toUInt8.toNat = c.val.toNat := by
      rw [UInt32.toNat_toUInt8]
      omega
    refine ⟨_, [], String.utf8EncodeChar_eq_singleton one, (first_byte _).1 ?_, ?_, by simp⟩
    · rw [UInt8.le_iff_toNat_le, same]
      exact small
    · rw [← UInt8.toNat_inj, same, Char.ext_iff, ← UInt32.toNat_inj]
      rfl
  · have first := (first_byte (c.val >>> 6).toUInt8).2.1
    refine ⟨_, _, String.utf8EncodeChar_eq_cons_cons two, first.1,
      iff_of_false first.2 (other (by omega)), ?_⟩
    simp [further_byte]
  · have first := (first_byte (c.val >>> 12).toUInt8).2.2.1
    refine ⟨_, _, String.utf8EncodeChar_eq_cons_cons_cons three, first.1,
      iff_of_false first.2 (other (by omega)), ?_⟩
    simp [further_byte]
  · have first := (first_byte (c.val >>> 18).toUInt8).2.2.2
    refine ⟨_, _, String.utf8EncodeChar_eq_cons_cons_cons_cons four, first.1,
      iff_of_false first.2 (other (by omega)), ?_⟩
    simp [further_byte]

namespace Position

/-- Bytes that continue a character only add to the offset. -/
theorem bytes_continuation {bs : List UInt8} (h : ∀ b ∈ bs, isContinuation b = true ∧ b ≠ 10)
    (p : Position) : p.bytes bs = { p with offset := p.offset + bs.length } := by
  induction bs generalizing p with
  | nil => rfl
  | cons b bs ih =>
    rw [List.forall_mem_cons] at h
    rw [bytes, List.foldl_cons, ← bytes, ih h.2, byte, if_neg h.1.2, if_pos h.1.1]
    simp [Nat.add_assoc, Nat.add_comm 1]

/-- Passing the bytes of a character is passing the character by itself. -/
theorem bytes_char (p : Position) (c : Char) : p.bytes (String.utf8EncodeChar c) = p.advance c := by
  obtain ⟨b, bs, form, counts, feed, further⟩ := utf8_char c
  have size : bs.length + 1 = c.utf8Size := by
    rw [← String.length_utf8EncodeChar, form, List.length_cons]
  rw [form, bytes, List.foldl_cons, ← bytes, bytes_continuation further, byte, advance]
  by_cases h : c = '\n'
  · rw [if_pos (feed.2 h), if_pos h]
    simp only [mk.injEq, true_and]
    omega
  · rw [if_neg (h ∘ feed.1), counts, if_neg h, if_neg Bool.false_ne_true]
    simp only [mk.injEq, true_and]
    omega

/-- Passing a text byte by byte is passing each of its characters by itself. -/
theorem bytes_utf8 (p : Position) (cs : List Char) : p.bytes (utf8 cs) = p.across (cs.map .alone) := by
  induction cs generalizing p with
  | nil => rfl
  | cons c cs ih =>
    rw [utf8, List.flatMap_cons, bytes, List.foldl_append, ← bytes, ← bytes, bytes_char, ← utf8, ih,
      List.map_cons, across_cons, stride]

/-! ### All at once -/

theorem lines_eq (line column : UInt32) (cs : List Char) :
    lines line column cs = match cs.dropWhile (· != '\n') with
      | [] => (line, columnBehind column cs.length)
      | _ :: rest => lines (line + 1) 1 rest := by
  rw [lines]
  split
  · next h => rw [h]
  · next h => rw [h]

/-- A column can be moved over one character and then over others. -/
theorem columnBehind_succ (column : UInt32) (count : Nat) :
    columnBehind column (count + 1) =
      columnBehind (if column = lastNumber then lastNumber else column + 1) count := by
  have fits := column.toNat_lt_size
  have most : lastNumber.toNat = UInt32.size - 1 := rfl
  rw [columnBehind, columnBehind]
  split
  · next last =>
    rw [last, most]
    congr 1
    omega
  · next more =>
    have less : column.toNat ≠ lastNumber.toNat := fun h => more (UInt32.toNat_inj.1 h)
    rw [toNat_add_one (by omega)]
    congr 1
    omega

/-- Passing characters of one line in a stretch moves a place along that line. -/
theorem across_within {cs : List Char} (h : '\n' ∉ cs) (p : Position) :
    (p.across (cs.map .within)).line = p.line ∧
      (p.across (cs.map .within)).column = columnBehind p.column cs.length := by
  induction cs generalizing p with
  | nil =>
    have fits := p.column.toNat_lt_size
    refine ⟨rfl, ?_⟩
    rw [columnBehind, List.length_nil, Nat.add_zero, Nat.min_eq_left (by omega), UInt32.ofNat_toNat]
    rfl
  | cons c cs ih =>
    rw [List.mem_cons, not_or] at h
    have other : c ≠ '\n' := Ne.symm h.1
    obtain ⟨line, column⟩ := ih h.2 (p.leap c)
    rw [List.map_cons, across_cons, stride, line, column, leap, if_neg other, List.length_cons,
      columnBehind_succ]
    exact ⟨rfl, rfl⟩

/-- Counting a stretch of text at once leads to the line and the column behind its characters. -/
theorem lines_across (p : Position) (cs : List Char) :
    lines p.line p.column cs = ((p.across (cs.map .within)).line, (p.across (cs.map .within)).column) := by
  generalize hn : cs.length = n
  induction n using Nat.strong_induction_on generalizing p cs with
  | _ n ih =>
    subst hn
    rw [lines_eq]
    cases h : cs.dropWhile (· != '\n') with
    | nil =>
      have single : '\n' ∉ cs := fun feed => by simpa using List.dropWhile_eq_nil_iff.1 h _ feed
      rw [(across_within single p).1, (across_within single p).2]
    | cons c rest =>
      have feed : c = '\n' := by
        have first := List.head?_dropWhile_not (· != '\n') cs
        rw [h] at first
        simpa using first
      subst feed
      have whole : cs = cs.takeWhile (· != '\n') ++ '\n' :: rest := by
        rw [← h, List.takeWhile_append_dropWhile]
      have single : '\n' ∉ cs.takeWhile (· != '\n') := fun feed => by
        simpa using List.all_eq_true.1 List.all_takeWhile _ feed
      -- Behind the line feed the next line starts.
      have next : p.across (cs.map .within) = (⟨p.line + 1, 1,
          ((p.across ((cs.takeWhile (· != '\n')).map .within)).leap '\n').offset⟩ : Position).across
            (rest.map .within) := by
        conv_lhs => rw [whole]
        rw [List.map_append, across_append, List.map_cons, across_cons, stride, leap, if_pos rfl,
          (across_within single p).1]
      have shorter : rest.length < cs.length := by
        rw [whole, List.length_append, List.length_cons]
        omega
      rw [next, ← ih _ shorter _ _ rfl]

/-- Passing a text at once is passing its characters within a stretch. -/
theorem stretch_eq (p : Position) (cs : List Char) : p.stretch cs = p.across (cs.map .within) := by
  have offset := offset_across p (cs.map .within)
  rw [chars_map Stride.char_within] at offset
  rw [stretch, lines_across, ← offset]

/-- The place behind a part of a text, which is passed over at once or byte by byte. -/
def part (p : Position) : (part : Bool × List Char) → Position
  | (true, cs) => p.stretch cs
  | (false, cs) => p.bytes (utf8 cs)

theorem reaches_part (p : Position) (part : Bool × List Char) : p.Reaches part.2 (p.part part) := by
  obtain ⟨_ | _, cs⟩ := part
  · exact ⟨cs.map .alone, chars_map Stride.char_alone cs, bytes_utf8 p cs⟩
  · exact ⟨cs.map .within, chars_map Stride.char_within cs, stretch_eq p cs⟩

/-- Both ways can be mixed at will. -/
theorem reaches_parts (p : Position) (parts : List (Bool × List Char)) :
    p.Reaches (parts.flatMap Prod.snd) (parts.foldl part p) := by
  induction parts generalizing p with
  | nil => exact .refl p
  | cons first parts ih => exact (reaches_part p first).trans (ih _)

end Position

/-! ### Tokens and errors of a text -/

variable {text : String}

/-- The tokens of a short text stand at places of it. -/
theorem in_of_mem_tokens {tokens : List Token} (short : text.length < UInt32.size - 1)
    (h : tokenize text = .ok tokens) : ∀ t ∈ tokens, t.position.In text := by
  obtain ⟨ts, lexer, passes, ended, rfl⟩ := Lexer.passes_of_tokens h
  obtain ⟨cs, whole, place, tiles⟩ := passes.tiles
  rw [ended, List.append_nil] at whole
  intro t ht
  rcases List.mem_append.1 ht with token | mark
  · obtain ⟨-, -, before, behind, split, at_⟩ := tiles.place t token
    exact at_.in_text short (whole.trans split)
  · rw [List.mem_singleton.1 mark]
    exact place.in_text short (whole.trans (List.append_nil cs).symm)

/-- The lexical error of a short text stands at a place of it. -/
theorem in_of_error {e : LexError} (short : text.length < UInt32.size - 1)
    (h : tokenize text = .error e) : e.position.In text := by
  obtain ⟨ts, lexer, passes, -, position⟩ := Lexer.passes_of_error h
  obtain ⟨cs, whole, place, -⟩ := passes.tiles
  rw [position]
  exact place.in_text short whole

end CanonicalSql
