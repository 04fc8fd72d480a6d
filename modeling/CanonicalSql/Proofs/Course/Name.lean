import CanonicalSql.Parser.Grammar
import CanonicalSql.Parser.Name
import CanonicalSql.Proofs.Course.Construct

/-! What the rules for names give, and what is asked of a grammar. -/

namespace CanonicalSql

open Keyword Word CanonicalSql.Symbol

namespace Token.Kind

/-- A token that writes a name is no constant and no mark of the end. -/
theorem of_name? {k : Token.Kind} {name : String} (h : k.name? = some name) :
    k.isLiteral = false ∧ k ≠ .eof := by
  cases k <;> simp_all [name?, isLiteral]

end Token.Kind

namespace Parse

variable {plain : Prop}

/-- A step over a token that is no constant. -/
theorem GivesAt.silent {β : Type} {c : Cursor} {y : Parse β}
    {R : ℕ → List Token.Kind → β → Prop} (literal : c.current.kind.isLiteral = false)
    (hk : c.current.kind ≠ .eof) (hy : y.Yields plain R) :
    (discard Parse.advance >>= fun _ => y).GivesAt plain c fun n ts b _ => R n (literalsOf ts) b := by
  refine .discard_advance hk ?_
  simp only [literalsOf_silent literal]
  exact hy c.advance

/-- A step over several tokens that are no constants. -/
theorem GivesAt.silently {β : Type} {c : Cursor} {count : ℕ} {y : Parse β}
    {R : ℕ → List Token.Kind → β → Prop}
    (silent : ∀ i < count, (c.peekAt i).kind.isLiteral = false ∧ (c.peekAt i).kind ≠ .eof)
    (hy : y.Yields plain R) :
    (Parse.skip count >>= fun _ => y).GivesAt plain c fun n ts b _ => R n (literalsOf ts) b := by
  refine .skip (fun i hi => (silent i hi).2) fun c' => ?_
  have none : literalsOf ((List.range count).map c.peekAt) = [] := by
    simpa [literalsOf] using fun i hi => (silent i hi).1
  simp only [literalsOf_append, none, List.nil_append]
  exact hy c'

/-- A step over a constant or a parameter. -/
theorem GivesAt.literal {β : Type} {c : Cursor} {y : Parse β} {k : Token.Kind}
    {R : ℕ → List Token.Kind → β → Prop} (hc : c.current.kind = k) (literal : k.isLiteral = true)
    (hy : y.Yields plain fun n ls b => R n (k :: ls) b) :
    (discard Parse.advance >>= fun _ => y).GivesAt plain c fun n ts b _ => R n (literalsOf ts) b := by
  subst hc
  refine .discard_advance (fun he => by simp [he, Token.Kind.isLiteral] at literal) ?_
  have first : ∀ ts : List Token,
      literalsOf (c.current :: ts) = c.current.kind :: literalsOf ts := fun ts => by
    simp [literalsOf, literal]
  simp only [first]
  exact hy c.advance

/-- What is silent holds as such. -/
theorem holds_silent {α : Type} [Construct α] {a : α} {bound : ℕ}
    (wellFormed : Construct.WellFormed a) (depth : Construct.depth a = 0)
    (literals : Construct.literals a = []) : Holds plain bound [] a :=
  ⟨wellFormed, by omega, fun _ => literals.symm⟩

theorem sound_identifier : identifier.Sound plain := by
  refine .peek fun c => ?_
  cases hn : c.current.kind.name? with
  | none => exact .fail _
  | some name =>
    obtain ⟨literal, noEnd⟩ := Token.Kind.of_name? hn
    exact .silent literal noEnd (.pure (holds_silent trivial rfl rfl))

theorem sound_qualifiedName : qualifiedName.Sound plain := by
  refine .bind sound_identifier fun _ _ first h1 => .accept ?_ ?_
  · refine .last (sound_identifier.mono fun _ _ second h2 => ?_)
    exact (h1.and h2).into (fun _ => trivial) le_rfl rfl
  · exact .pure (by simpa using h1.into (b := QualifiedName.bare first) id le_rfl rfl)

theorem sound_label (expected : Expectation) : (label expected).Sound plain := by
  intro c
  refine .current ?_
  have named : ∀ name : String, Holds plain (triangle 0) [] name := fun _ =>
    holds_silent trivial rfl rfl
  cases hk : c.current.kind with
  | ident name | quotedIdent name | keyword k =>
    exact GivesAt.silent (by rw [hk]; rfl) (by rw [hk]; simp) (.pure (named _))
  | _ => exact .fail _

/-- A string literal is a constant. -/
theorem yields_stringLiteral (expected : Expectation) :
    (stringLiteral expected).Yields plain fun _ ls value => ls = [.string value] := by
  refine .peek fun c => ?_
  cases hk : c.current.kind with
  | string value =>
    exact GivesAt.literal (R := fun _ ls value => ls = [.string value]) hk rfl (.pure rfl)
  | _ => exact .fail _

theorem yields_optionalString (t : Terminal) (expected : Expectation) :
    (Parse.optional t (stringLiteral expected)).Yields plain fun _ ls value =>
      ls = literalsIn (fun v => [Token.Kind.string v]) value :=
  .accept (.last ((yields_stringLiteral expected).mono fun _ _ _ h => h)) (.pure rfl)

theorem sound_aliasName : aliasName.Sound plain := by
  refine .accept (.last (sound_identifier.mono fun _ _ _ h => h.into id le_rfl rfl)) ?_
  refine .peek fun c => ?_
  split
  · exact Yields.here (.last (sound_identifier.mono fun _ _ _ h => h.into id le_rfl rfl))
  · exact .pure (holds_silent trivial rfl rfl)

theorem yields_nameList :
    nameList.Yields plain fun n ls names => names ≠ [] ∧ Holds plain (triangle n) ls names :=
  .between _ _ sound_identifier.commaList

theorem sound_nameList : nameList.Sound plain := yields_nameList.mono fun _ _ _ h => h.2

theorem holds_nil {α : Type} [Construct α] {bound : ℕ} : Holds plain bound [] ([] : List α) :=
  holds_silent (by simp [Construct.WellFormed]) rfl rfl

theorem sound_optionalNameList : optionalNameList.Sound plain :=
  .seen sound_nameList (.pure holds_nil)

theorem sound_acceptAll (ts : List Terminal) : (acceptAll ts).Sound plain := by
  rw [← bind_pure (acceptAll ts)]
  exact .acceptAll (.pure (holds_silent trivial rfl rfl)) (.pure (holds_silent trivial rfl rfl))

theorem sound_accept (t : Terminal) : (accept t).Sound plain := by
  rw [← bind_pure (accept t)]
  exact .accept (.pure (holds_silent trivial rfl rfl)) (.pure (holds_silent trivial rfl rfl))

theorem sound_ifNotExists : ifNotExists.Sound plain := sound_acceptAll _

theorem sound_ifExists : ifExists.Sound plain := sound_acceptAll _

theorem sound_onCluster : onCluster.Sound plain := by
  refine .acceptAll ?_ (.pure (holds_silent trivial rfl rfl))
  exact .last (sound_identifier.mono fun _ _ _ h => h.into id le_rfl rfl)

end Parse

end CanonicalSql
