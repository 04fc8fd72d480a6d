import CanonicalSql.Proofs.Course.Step
import CanonicalSql.Proofs.Depth
import CanonicalSql.Proofs.WellFormed

/-! What is known of the trees that rules give: that they are well formed, that their depth is bounded
by the levels of the course, and that they keep the constants and parameters of the source. -/

namespace CanonicalSql

/-! ### Constructs -/

/-- The types of what rules give. -/
class Construct (α : Type) where
  /-- Whether it has the shape that the grammar gives it. -/
  WellFormed : α → Prop
  /-- The depth of the trees in it. -/
  depth : α → ℕ
  /-- The constants and parameters in it, in their order in the canonical text. -/
  literals : α → List Token.Kind

/-- What holds no trees and no constants, such as a name. -/
@[reducible] def Construct.silent (α : Type) : Construct α := ⟨fun _ => True, fun _ => 0, fun _ => []⟩

/-- The constants and parameters in what an option holds. -/
def literalsIn {α : Type} (literals : α → List Token.Kind) : Option α → List Token.Kind
  | none => []
  | some a => literals a

@[simp] theorem literalsIn_none {α : Type} (literals : α → List Token.Kind) :
    literalsIn literals none = [] := rfl

@[simp] theorem literalsIn_some {α : Type} (literals : α → List Token.Kind) (a : α) :
    literalsIn literals (some a) = literals a := rfl

@[simp] theorem flatMap_silent {α : Type} (as : List α) :
    as.flatMap (fun _ => ([] : List Token.Kind)) = [] := by
  induction as with
  | nil => rfl
  | cons a as ih => simp [ih]

@[simp] theorem literalsIn_silent {α : Type} (o : Option α) : literalsIn (fun _ => []) o = [] := by
  cases o <;> rfl

@[simp] theorem depthIn_silent {α : Type} (o : Option α) : depthIn (fun _ => 0) o = 0 := by
  cases o <;> rfl

@[simp] theorem deepest_silent {α : Type} (as : List α) : deepest (fun _ => 0) as = 0 := by
  induction as with
  | nil => rfl
  | cons a as ih => simp [deepest, ih]

instance : Construct Unit := .silent Unit
instance : Construct Bool := .silent Bool
instance : Construct String := .silent String
instance : Construct QualifiedName := .silent QualifiedName

section

variable {α β : Type} [Construct α] [Construct β]

instance : Construct (Option α) where
  WellFormed o := match o with | none => True | some a => Construct.WellFormed a
  depth := depthIn Construct.depth
  literals := literalsIn Construct.literals

instance : Construct (List α) where
  WellFormed as := ∀ a ∈ as, Construct.WellFormed a
  depth := deepest Construct.depth
  literals as := as.flatMap Construct.literals

instance : Construct (α × β) where
  WellFormed p := Construct.WellFormed p.1 ∧ Construct.WellFormed p.2
  depth p := max (Construct.depth p.1) (Construct.depth p.2)
  literals p := Construct.literals p.1 ++ Construct.literals p.2

theorem Construct.forall_mem {o : Option α} (h : Construct.WellFormed o) :
    ∀ a ∈ o, Construct.WellFormed a := by
  rintro a rfl
  exact h

end

/-! ### The depth that some number of levels allows -/

/-- The sum of the numbers up to `n`.  Inside a level opened anew all that are left can be used again,
so the depth of a tree is bounded not by the number of levels but by the sum up to it. -/
def triangle : ℕ → ℕ
  | 0 => 0
  | n + 1 => triangle n + (n + 1)

theorem triangle_mono : Monotone triangle :=
  monotone_nat_of_le_succ fun n => by rw [triangle]; omega

@[simp] theorem triangle_max (n m : ℕ) :
    triangle (max n m) = max (triangle n) (triangle m) := triangle_mono.map_max

theorem two_mul_triangle (n : ℕ) : 2 * triangle n = n * (n + 1) := by
  induction n with
  | zero => rfl
  | succ n ih => rw [triangle, Nat.mul_add, ih, ← Nat.add_mul, Nat.mul_comm]

/-! ### What holds of results -/

/-- What is known of the result `a` of a step whose course has so many levels that trees of the depth
`bound` are possible, and which passed over tokens with the constants and parameters `ls`. -/
structure Holds {α : Type} [Construct α] (plain : Prop) (bound : ℕ) (ls : List Token.Kind)
    (a : α) : Prop where
  wellFormed : Construct.WellFormed a
  shallow : Construct.depth a ≤ bound
  literals : plain → ls = Construct.literals a

namespace Holds

variable {α β : Type} [Construct α] [Construct β] {plain : Prop} {bound bound' n m : ℕ}
  {ls ks : List Token.Kind} {a : α} {b : β}

/-- What a tree is made of tells what it is. -/
theorem into (h : Holds plain bound ls a)
    (wellFormed : Construct.WellFormed a → Construct.WellFormed b)
    (shallow : Construct.depth b ≤ Construct.depth a)
    (literals : Construct.literals b = Construct.literals a) : Holds plain bound ls b :=
  ⟨wellFormed h.wellFormed, shallow.trans h.shallow, fun hp => (h.literals hp).trans literals.symm⟩

/-- A tree of one node on top of what it is made of. -/
theorem node (h : Holds plain bound ls a)
    (wellFormed : Construct.WellFormed a → Construct.WellFormed b)
    (shallow : Construct.depth b ≤ Construct.depth a + 1)
    (literals : Construct.literals b = Construct.literals a) : Holds plain (bound + 1) ls b :=
  ⟨wellFormed h.wellFormed, shallow.trans (Nat.add_le_add_right h.shallow 1),
    fun hp => (h.literals hp).trans literals.symm⟩

theorem and (ha : Holds plain (triangle n) ls a) (hb : Holds plain (triangle m) ks b) :
    Holds plain (triangle (max n m)) (ls ++ ks) (a, b) where
  wellFormed := ⟨ha.wellFormed, hb.wellFormed⟩
  shallow := by
    rw [triangle_max]
    exact max_le_max ha.shallow hb.shallow
  literals hp := by
    rw [ha.literals hp, hb.literals hp]
    rfl

theorem loosen (h : Holds plain bound ls a) (hb : bound ≤ bound') : Holds plain bound' ls a :=
  ⟨h.wellFormed, h.shallow.trans hb, h.literals⟩

end Holds

/-! ### Steps -/

/-- A terminal is no constant and no mark of the end. -/
theorem Terminal.silent {t : Terminal} {k : Token.Kind} (h : t.admits k = true) :
    k.isLiteral = false ∧ k ≠ .eof := by
  cases k <;> cases t <;> simp_all [Terminal.admits, Token.Kind.isLiteral]

namespace Parse

/-- Whether the results of a step are as asked, as far as their levels and the constants and
parameters among the tokens passed over are concerned. -/
def Yields {α : Type} (plain : Prop) (x : Parse α) (Q : ℕ → List Token.Kind → α → Prop) : Prop :=
  x.Gives plain fun n ts a => Q n (literalsOf ts) a

/-- Whether all that is known of constructs holds of the results of a step. -/
def Sound {α : Type} [Construct α] (plain : Prop) (x : Parse α) : Prop :=
  x.Yields plain fun n ls a => Holds plain (triangle n) ls a

section

variable {α β : Type} {plain : Prop} {x : Parse α} {f : α → Parse β}
  {Q : ℕ → List Token.Kind → α → Prop} {R : ℕ → List Token.Kind → β → Prop}

theorem Yields.mono {Q' : ℕ → List Token.Kind → α → Prop} (h : x.Yields plain Q)
    (hQ : ∀ n ls a, Q n ls a → Q' n ls a) : x.Yields plain Q' :=
  Gives.mono h fun n ts a => hQ n (literalsOf ts) a

/-- What a step yields wherever it starts it yields from a cursor on. -/
theorem Yields.here {y : Parse β} {c : Cursor} (h : y.Yields plain R) :
    y.GivesAt plain c fun n ts b _ => R n (literalsOf ts) b := h c

theorem Yields.pure {b : β} (h : R 0 [] b) : (Pure.pure b : Parse β).Yields plain R :=
  Gives.pure h

theorem Yields.fail (expected : Expectation) : (Parse.fail expected : Parse β).Yields plain R :=
  Gives.fail expected

theorem Yields.bind (hx : x.Yields plain Q)
    (hf : ∀ n ls a, Q n ls a → (f a).Yields plain fun m ks b => R (max n m) (ls ++ ks) b) :
    (x >>= f).Yields plain R :=
  Gives.bind hx fun n ts a q => by
    simpa only [Yields, literalsOf_append] using hf n (literalsOf ts) a q

/-- A last step, whose result is only put into another form. -/
theorem Yields.last {g : α → β} (hx : x.Yields plain fun n ls a => R n ls (g a)) :
    (x >>= fun a => Pure.pure (g a)).Yields plain R :=
  hx.bind fun n ls a r => .pure (by simpa using r)

theorem Yields.map {g : α → β} (hx : x.Yields plain fun n ls a => R n ls (g a)) :
    (g <$> x).Yields plain R :=
  Gives.map hx

theorem Yields.descend {y : Parse β} (hy : y.Yields plain fun n => R (n + 1)) :
    (Parse.descend y).Yields plain R :=
  Gives.descend hy

theorem Yields.remaining {f : ℕ → Parse β} (hf : ∀ count, (f count).Yields plain R) :
    (Parse.remaining >>= f).Yields plain R :=
  Gives.remaining hf

/-- Terminals are no constants. -/
theorem literalsOf_terminal {t : Terminal} {token : Token} (h : t.admits token.kind = true)
    (ts : List Token) : literalsOf (token :: ts) = literalsOf ts :=
  literalsOf_silent (Terminal.silent h).1

theorem literalsOf_terminals {ts : List Terminal} {us : List Token}
    (h : ∀ u ∈ us, ∃ t ∈ ts, t.admits u.kind = true) : literalsOf us = [] := by
  induction us with
  | nil => rfl
  | cons u us ih =>
    rw [List.forall_mem_cons] at h
    obtain ⟨t, -, ht⟩ := h.1
    rw [literalsOf_terminal ht, ih h.2]

theorem Yields.accept {t : Terminal} {f : Bool → Parse β} (some : (f true).Yields plain R)
    (none : (f false).Yields plain R) : (Parse.accept t >>= f).Yields plain R :=
  Gives.accept (fun token ht => by
    simp only [literalsOf_terminal ht]
    exact some) none

theorem Yields.expect {t : Terminal} {f : Unit → Parse β} (hf : (f ()).Yields plain R) :
    (Parse.expect t >>= f).Yields plain R :=
  Gives.expect fun token ht => by
    simp only [literalsOf_terminal ht]
    exact hf

theorem Yields.discard_accept {t : Terminal} {f : Unit → Parse β} (hf : (f ()).Yields plain R) :
    (discard (Parse.accept t) >>= f).Yields plain R :=
  Gives.discard_accept (fun token ht => by
    simp only [literalsOf_terminal ht]
    exact hf) hf

theorem Yields.acceptAll {ts : List Terminal} {f : Bool → Parse β}
    (some : (f true).Yields plain R) (none : (f false).Yields plain R) :
    (Parse.acceptAll ts >>= f).Yields plain R :=
  Gives.acceptAll (fun us _ hu => by
    simp only [literalsOf_append, literalsOf_terminals hu, List.nil_append]
    exact some) none

theorem Yields.seen {t : Terminal} {y z : Parse β} (hy : y.Yields plain R)
    (hz : z.Yields plain R) :
    (Parse.sees t >>= fun found => if found = true then y else z).Yields plain R :=
  Gives.seen hy hz

theorem Yields.sees {t : Terminal} {f : Bool → Parse β}
    (hf : ∀ found, (f found).Yields plain R) : (Parse.sees t >>= f).Yields plain R :=
  fun c => .sees (hf _ c)

theorem Yields.peek {f : Token.Kind → Parse β}
    (hf : ∀ c : Cursor, (f c.current.kind).GivesAt plain c fun n ts b _ => R n (literalsOf ts) b) :
    (Parse.peek >>= f).Yields plain R :=
  Gives.peek hf

theorem Yields.between (opening closing : Symbol) (hx : x.Yields plain Q) :
    (Parse.between opening closing x).Yields plain Q := by
  refine .expect (.bind hx fun n ls a r => .expect (.pure ?_))
  simpa using r

end

/-! ### Lists and options -/

section

variable {α : Type} [Construct α] {plain : Prop} {x : Parse α}

theorem Sound.commaItems (hx : x.Sound plain) (count : ℕ) :
    (Parse.commaItems x count).Sound plain := by
  induction count with
  | zero => exact .pure ⟨by simp [Construct.WellFormed], by simp [Construct.depth, deepest],
      fun _ => rfl⟩
  | succ count ih =>
    refine .accept ?_ (.pure ⟨by simp [Construct.WellFormed], by simp [Construct.depth, deepest],
      fun _ => rfl⟩)
    refine .bind hx fun _ _ first h1 => .last (ih.mono fun _ _ others h2 => ?_)
    exact (h1.and h2).into (fun w => List.forall_mem_cons.2 w) le_rfl rfl

/-- Items with commas between them; there is one at least. -/
theorem Sound.commaList (hx : x.Sound plain) :
    (Parse.commaList x).Yields plain fun n ls as => as ≠ [] ∧ Holds plain (triangle n) ls as := by
  refine .bind hx fun _ _ first h1 => .remaining fun count => ?_
  refine .last ((hx.commaItems count).mono fun _ _ others h2 => ?_)
  exact ⟨by simp, (h1.and h2).into (fun w => List.forall_mem_cons.2 w) le_rfl rfl⟩

theorem Sound.commas (hx : x.Sound plain) : (Parse.commaList x).Sound plain :=
  hx.commaList.mono fun _ _ _ h => h.2

theorem Sound.commaListUpTo (hx : x.Sound plain) (closing : Symbol) :
    (Parse.commaListUpTo closing x).Sound plain :=
  .seen (.pure ⟨by simp [Construct.WellFormed], by simp [Construct.depth, deepest], fun _ => rfl⟩)
    hx.commas

theorem Sound.optional (t : Terminal) (hx : x.Sound plain) : (Parse.optional t x).Sound plain := by
  refine .accept (.last (hx.mono fun _ _ _ h => ?_))
    (.pure ⟨trivial, Nat.zero_le _, fun _ => rfl⟩)
  exact h.into id le_rfl rfl

theorem Sound.optionalList {y : Parse (List α)} (t : Terminal) (hy : y.Sound plain) :
    (Parse.optionalList t y).Sound plain :=
  .accept hy (.pure ⟨by simp [Construct.WellFormed], by simp [Construct.depth, deepest],
    fun _ => rfl⟩)

end

end Parse

end CanonicalSql
