/-! Places in a text.  Lines and columns are counted in words of 32 bits.  There are two ways over a
character: it is passed by itself, or within a stretch of text that is passed at once.  They differ
only in lines that are longer than a word can count. -/

namespace CanonicalSql

/-- A character that is passed over. -/
inductive Stride where
  /-- Passed by itself. -/
  | alone (c : Char)
  /-- Passed within a stretch of text. -/
  | within (c : Char)

/-- The character that is passed over. -/
def Stride.char : Stride → Char
  | .alone c | .within c => c

@[simp] theorem Stride.char_alone (c : Char) : (Stride.alone c).char = c := rfl

@[simp] theorem Stride.char_within (c : Char) : (Stride.within c).char = c := rfl

/-- A place in a text: lines and columns count characters from one, the offset counts bytes of the
UTF-8 form from zero. -/
@[ext]
structure Position where
  line : UInt32
  column : UInt32
  offset : Nat
  deriving DecidableEq

namespace Position

/-- The place of a text's first character. -/
def start : Position := ⟨1, 1, 0⟩

/-- The place given to the end of a token vector that holds no tokens. -/
def nowhere : Position := ⟨0, 0, 0⟩

/-- The last number that a line or a column can have. -/
def lastNumber : UInt32 := 0xFFFFFFFF

/-- The place behind the character `c` at `p` if it is passed by itself: a line feed ends the line,
and no other character does.  Behind the last number comes zero. -/
def advance (p : Position) (c : Char) : Position :=
  if c = '\n' then ⟨p.line + 1, 1, p.offset + c.utf8Size⟩
  else ⟨p.line, p.column + 1, p.offset + c.utf8Size⟩

/-- The place behind the character `c` at `p` if it is passed within a stretch of text: the column
stays at the last number that it can have. -/
def leap (p : Position) (c : Char) : Position :=
  if c = '\n' then ⟨p.line + 1, 1, p.offset + c.utf8Size⟩
  else ⟨p.line, if p.column = lastNumber then lastNumber else p.column + 1, p.offset + c.utf8Size⟩

/-- The place behind a character that is passed over at `p`. -/
def stride (p : Position) : Stride → Position
  | .alone c => p.advance c
  | .within c => p.leap c

/-- The place behind characters that are passed over one behind the other from `p` on. -/
def across (p : Position) (ss : List Stride) : Position := ss.foldl stride p

@[simp] theorem across_nil (p : Position) : p.across [] = p := rfl

@[simp] theorem across_cons (p : Position) (s : Stride) (ss : List Stride) :
    p.across (s :: ss) = (p.stride s).across ss := rfl

theorem across_append (p : Position) (ss ts : List Stride) :
    p.across (ss ++ ts) = (p.across ss).across ts := by
  simp [across]

theorem offset_stride (p : Position) (s : Stride) :
    (p.stride s).offset = p.offset + s.char.utf8Size := by
  cases s <;> simp only [stride, advance, leap, Stride.char] <;> split <;> rfl

/-- Passing a text adds its bytes to the offset, whatever lines it has. -/
theorem offset_across (p : Position) (ss : List Stride) :
    (p.across ss).offset = p.offset + (String.ofList (ss.map Stride.char)).utf8ByteSize := by
  induction ss generalizing p with
  | nil => simp
  | cons s ss ih =>
    rw [across_cons, ih, offset_stride, List.map_cons, String.ofList_cons, String.utf8ByteSize_append,
      String.utf8ByteSize_singleton]
    omega

/-- The place behind a text on the assumption that it stays on one line.  A text with more characters
than a word can count moves no column. -/
def besideText (p : Position) (text : String) : Position :=
  ⟨p.line, p.column + if text.length < UInt32.size then UInt32.ofNat text.length else 0,
    p.offset + text.utf8ByteSize⟩

/-- How messages name a place. -/
def describe (p : Position) : String :=
  "line " ++ toString p.line ++ ", column " ++ toString p.column

end Position

end CanonicalSql
