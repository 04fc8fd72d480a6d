import CanonicalSql.Token

/-! A cursor over a token vector.  It always stands on a token, and it never leaves a mark of the
end. -/

namespace CanonicalSql

/-- The number of tokens passed, the token under the cursor, and the tokens behind it. -/
structure Cursor where
  passed : Nat
  current : Token
  ahead : List Token
  deriving DecidableEq

namespace Cursor

/-- The mark of the end that a token vector lacks, if it lacks one: it stands beside the last
token, on the same line. -/
def missingEnd (tokens : List Token) : List Token :=
  match tokens.getLast? with
  | none => [.endMark .nowhere]
  | some last =>
    if last.kind = .eof then [] else [.endMark (last.position.besideText last.text)]

/-- The cursor on the first token of a vector, which is given a mark of the end if it has none. -/
def ofTokens (tokens : List Token) : Cursor :=
  match tokens ++ missingEnd tokens with
  | [] => ⟨0, .endMark .nowhere, []⟩
  | token :: tokens => ⟨0, token, tokens⟩

/-- The tokens from the cursor on. -/
def upcoming (c : Cursor) : List Token := c.current :: c.ahead

/-- The last token of the vector. -/
def last (c : Cursor) : Token := c.upcoming.getLast (List.cons_ne_nil _ _)

/-- A cursor starts on the first token of its vector, and the whole vector is ahead. -/
theorem upcoming_ofTokens (tokens : List Token) :
    (ofTokens tokens).upcoming = tokens ++ missingEnd tokens := by
  cases tokens with
  | nil => rfl
  | cons token tokens => rfl

/-- A vector that has its mark of the end is left as it is. -/
theorem upcoming_ofTokens_of_ended {tokens : List Token} {mark : Token} (ended : mark.kind = .eof) :
    (ofTokens (tokens ++ [mark])).upcoming = tokens ++ [mark] := by
  rw [upcoming_ofTokens]
  simp [missingEnd, ended]

theorem passed_ofTokens (tokens : List Token) : (ofTokens tokens).passed = 0 := by
  unfold ofTokens
  split <;> rfl

/-- The token `n` places ahead, the last one if there are fewer. -/
def peekAt (c : Cursor) (n : Nat) : Token := c.upcoming[n]?.getD c.last

/-- The cursor on the token behind the current one; a mark of the end is never left. -/
def advance (c : Cursor) : Cursor :=
  if c.current.kind = .eof then c
  else
    match c.ahead with
    | [] => c
    | token :: ahead => ⟨c.passed + 1, token, ahead⟩

/-- Whether the cursor stands on a mark of the end. -/
def atEnd (c : Cursor) : Bool := c.current.kind = .eof

/-- The number of tokens of the whole vector, marks of the end included. -/
def size (c : Cursor) : Nat := c.passed + c.upcoming.length

/-- Moving leaves the vector as it is. -/
@[simp] theorem size_advance (c : Cursor) : c.advance.size = c.size := by
  obtain ⟨passed, current, ahead⟩ := c
  unfold advance
  split
  · rfl
  · cases ahead with
    | nil => rfl
    | cons token ahead =>
      simp only [size, upcoming, List.length_cons]
      omega

/-- Moving keeps the last token in sight. -/
@[simp] theorem last_advance (c : Cursor) : c.advance.last = c.last := by
  obtain ⟨passed, current, ahead⟩ := c
  unfold advance
  split
  · rfl
  · cases ahead with
    | nil => rfl
    | cons token ahead => simp [last, upcoming]

/-- Whether the vector holds nothing but one mark of the end. -/
def isEmpty (c : Cursor) : Bool := c.size ≤ 1

/-- The number of tokens behind the current one. -/
def remaining (c : Cursor) : Nat := c.ahead.length

end Cursor

end CanonicalSql
