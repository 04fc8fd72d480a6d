import Mathlib
import CanonicalSql.Proofs.Alike.Document
import CanonicalSql.Proofs.Lexing.Spaced

/-! Layout carries no meaning.  Blanks and comments end the tokens before them and are no tokens
themselves, and a document is made of the kinds and the texts of its tokens alone. -/

namespace CanonicalSql

/-- Tokens that are the same but for their places. -/
def Likeness.elsewhere : Likeness where
  like t t' := t'.spelled = t.spelled
  kind_eq h := congrArg Spelled.kind h
  text_eq h := congrArg Spelled.text h
  beyond := []

/-- Tokens that are the same but for their places go together. -/
theorem Likeness.tokens_elsewhere {ts ts' : List Token} {mark mark' : Token}
    (inside : ∀ t ∈ ts, t.kind ≠ .eof) (ended : mark.kind = .eof)
    (h : (ts' ++ [mark']).map Token.spelled = (ts ++ [mark]).map Token.spelled) :
    elsewhere.Tokens (ts ++ [mark]) (ts' ++ [mark']) := by
  rw [List.map_append, List.map_append] at h
  obtain ⟨front, last⟩ := List.append_inj' h rfl
  induction ts generalizing ts' with
  | nil =>
    obtain rfl : ts' = [] := by simpa using front
    exact .mark ended (List.cons.inj last).1 rfl
  | cons t ts ih =>
    rw [List.forall_mem_cons] at inside
    cases ts' with
    | nil => cases front
    | cons t' ts' =>
      obtain ⟨first, others⟩ := List.cons.inj front
      exact .next inside.1 first (ih inside.2 (by rw [others, last]) others)

end CanonicalSql
