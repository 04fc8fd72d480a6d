import Mathlib
import CanonicalSql.Proofs.Alike.Document
import CanonicalSql.Proofs.Lexing.Place

/-! The places that tokens and errors have.  The place of a token, of a lexical error and of an error of a
parse can be told from the text before it, and an error of a parse is about a token of the text. -/

namespace CanonicalSql

/-- Whether an error is the lexical error of a text, or about one of its tokens. -/
def ParseError.About (text : String) : ParseError → Prop
  | .lexical e => tokenize text = .error e
  | .unexpected found _ => ∃ tokens, tokenize text = .ok tokens ∧ found ∈ tokens
  | .tooDeep p _ => ∃ tokens, tokenize text = .ok tokens ∧ ∃ t ∈ tokens, p = t.position

/-- The tokens of one vector, each beside itself. -/
def Likeness.members (tokens : List Token) : Likeness where
  like t t' := t' = t ∧ t ∈ tokens
  kind_eq h := by rw [h.1]
  text_eq h := by rw [h.1]
  beyond := []

variable {text : String}

theorem Likeness.beside_members {tokens : List Token} (h : tokenize text = .ok tokens) (limit : Nat) :
    (Likeness.members tokens).Beside (Parser.ofTokens tokens limit).cursor
      (Parser.ofTokens tokens limit).cursor := by
  obtain ⟨ts, mark, all, ended, others⟩ := ended_of_tokenize h
  unfold Likeness.Beside
  rw [upcoming_ofTokens h]
  have front := Tokens.append (L := .members tokens) (f := id)
    (fun t ht => ⟨others t ht, rfl, by simp [all, ht]⟩) (.mark ended ⟨rfl, by simp [all]⟩ rfl)
  rwa [List.map_id, ← all] at front

theorem ParseError.About.of_errors {tokens : List Token} {e e' : ParseError}
    (h : tokenize text = .ok tokens) (errors : (Likeness.members tokens).Errors e e') :
    e.About text := by
  cases errors with
  | unexpected _ alike => exact ⟨tokens, h, alike.2⟩
  | tooDeep _ alike => exact ⟨tokens, h, _, alike.2, rfl⟩

/-- An error of a document is its lexical error, or about one of its tokens. -/
theorem about_of_parseDocument {limit : Nat} {e : ParseError} (h : parseDocument text limit = .error e) :
    e.About text := by
  unfold parseDocument Parse.ofText at h
  split at h
  · next found =>
    cases h
    exact found
  · next tokens found =>
    have ends : (Likeness.members tokens).Ends (Likeness.Same _) _ 0 limit
        (Parse.statements (.ofTokens tokens limit)) (Parse.statements (.ofTokens tokens limit)) :=
      Likeness.alike_statements rfl _ _ (Likeness.beside_members found limit) 0 limit
    unfold Parse.outcome at h
    generalize Parse.statements (.ofTokens tokens limit) = r at h ends
    cases ends with
    | result => cases h
    | cut more => exact absurd rfl more
    | refusal _ errors =>
      cases h
      exact .of_errors found errors

/-- An error of a short document stands at a place of it. -/
theorem in_of_parseDocument {limit : Nat} {e : ParseError} (short : text.length < UInt32.size - 1)
    (h : parseDocument text limit = .error e) : e.position.In text := by
  have about := about_of_parseDocument h
  cases e with
  | lexical e => exact in_of_error short about
  | unexpected found expected =>
    obtain ⟨tokens, lexed, mem⟩ := about
    exact in_of_mem_tokens short lexed found mem
  | tooDeep p n =>
    obtain ⟨tokens, lexed, t, mem, rfl⟩ := about
    exact in_of_mem_tokens short lexed t mem

/-- Every place that tokens and errors of a short text have can be told from the text before it: its line
from the number of line feeds, its column from the number of characters behind the last of them.  An error
of a parse is the lexical error of the text or about a token of it.  The lexer comes to these places whatever
parts of the text it passes over at once, and whatever parts byte by byte. -/
theorem places_of_short {text : String} (short : text.length < UInt32.size - 1) :
    (∀ tokens, tokenize text = .ok tokens → ∀ t ∈ tokens, t.position.In text) ∧
    (∀ e, tokenize text = .error e → e.position.In text) ∧
    (∀ limit e, parseDocument text limit = .error e → e.About text ∧ e.position.In text) ∧
    ∀ (parts : List (Bool × List Char)) (behind : List Char),
      text.toList = parts.flatMap Prod.snd ++ behind →
      (parts.foldl Position.part .start).Behind (parts.flatMap Prod.snd) := by
  refine ⟨fun _ h => in_of_mem_tokens short h, fun _ h => in_of_error short h,
    fun limit e h => ⟨about_of_parseDocument h, in_of_parseDocument short h⟩, fun parts behind h => ?_⟩
  refine (Position.reaches_parts .start parts).behind ?_
  have fewer : (parts.flatMap Prod.snd).length ≤ text.length := by
    rw [← String.length_toList, h, List.length_append]
    exact Nat.le_add_right _ _
  omega

/-- Behind a name that spans two lines a number is refused, at its place on the second line. -/
theorem places_of_short_lines :
    "SELECT \"é\n\" 1".length < UInt32.size - 1 ∧
    parseDocument "SELECT \"é\n\" 1" =
      .error (.unexpected ⟨.number "1", "1", ⟨2, 3, 13⟩⟩ .statementEnd) ∧
    (⟨2, 3, 13⟩ : Position).In "SELECT \"é\n\" 1" := by
  have short : "SELECT \"é\n\" 1".length < UInt32.size - 1 := by decide
  have read : parseDocument "SELECT \"é\n\" 1" =
      .error (.unexpected ⟨.number "1", "1", ⟨2, 3, 13⟩⟩ .statementEnd) := by cbv
  exact ⟨short, read, ((places_of_short short).2.2.1 _ _ read).2⟩

end CanonicalSql
