import CanonicalSql.Text.Position

/-! Comments.  A line comment ends with its line; a block comment may hold other block comments, and
it ends where as many comments have been closed as have been opened. -/

namespace CanonicalSql

/-- What the reader of a block comment found behind the opening delimiter.  It `read` up to the
closing delimiter, or, where nothing closes the comment, up to the last `*` or `/`. -/
structure BlockComment where
  closed : Bool
  read : List Char
  rest : List Char

namespace BlockComment

/-- One more character in front of what was read. -/
def prepend (cs : List Char) (b : BlockComment) : BlockComment :=
  ⟨b.closed, cs ++ b.read, b.rest⟩

/-- A character that is no part of a delimiter, in front of what was read: it is read only if
something behind it is. -/
def skip (c : Char) (b : BlockComment) : BlockComment :=
  if b.closed || !b.read.isEmpty then b.prepend [c] else ⟨false, [], c :: b.rest⟩

/-- Reads a comment from behind an opening delimiter.  The comments that are open are counted in a
word of 32 bits, and the comment ends where the count comes to zero. -/
def scan : (count : UInt32) → List Char → BlockComment
  | _, [] => ⟨false, [], []⟩
  | count, '/' :: '*' :: cs =>
    if count + 1 = 0 then ⟨true, ['/', '*'], cs⟩ else (scan (count + 1) cs).prepend ['/', '*']
  | count, '*' :: '/' :: cs =>
    if count - 1 = 0 then ⟨true, ['*', '/'], cs⟩ else (scan (count - 1) cs).prepend ['*', '/']
  | count, c :: cs =>
    if c = '/' || c = '*' then (scan count cs).prepend [c] else (scan count cs).skip c

/-- How a character of a block comment is passed over: the characters of delimiters by themselves,
and what stands between them at once. -/
def stride (c : Char) : Stride := if c = '/' || c = '*' then .alone c else .within c

/-- The characters that were read and those behind them. -/
def all (b : BlockComment) : List Char := b.read ++ b.rest

@[simp] theorem all_prepend (cs : List Char) (b : BlockComment) :
    (b.prepend cs).all = cs ++ b.all := by
  simp [all, prepend]

@[simp] theorem all_skip (c : Char) (b : BlockComment) : (b.skip c).all = c :: b.all := by
  unfold skip
  split
  · simp
  · next h => simp_all [all]

/-- Reading loses no character and adds none. -/
theorem all_scan (count : UInt32) (cs : List Char) : (scan count cs).all = cs := by
  fun_induction scan count cs with
  | case1 => rfl
  | case2 | case4 => rfl
  | case3 count cs _ ih | case5 count cs _ ih => simp [ih]
  | case6 count c cs _ _ _ ih => simp [ih]
  | case7 count c cs _ _ _ ih => simp [ih]

@[simp] theorem char_stride (c : Char) : (stride c).char = c := by
  unfold stride
  split <;> rfl

end BlockComment

end CanonicalSql
