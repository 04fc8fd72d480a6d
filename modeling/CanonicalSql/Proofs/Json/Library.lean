import CanonicalSql.Json.Library
import CanonicalSql.Proofs.Json.Statement
import CanonicalSql.Proofs.Json.Text

/-! Nothing is lost when trees are written with a JSON library and read back, except that a text may be nested
too deeply to be read. -/

namespace CanonicalSql

namespace JsonLibrary

open Json TreeReader

variable {α : Type}

/-- Whether trees are known from what a library writes. -/
structure Lossless (lib : JsonLibrary α) : Prop where
  /-- A tree is read back from its value. -/
  value : ∀ a, lib.deserialize (lib.serialize a) = some a
  /-- So it is from its value without the fields that are `null`. -/
  dropNulls : ∀ a, lib.deserialize (lib.serialize a).dropNulls = some a
  /-- It makes no difference which of these fields are left out. -/
  sparse : ∀ a j, Sparse (lib.serialize a) j → lib.deserialize j = some a
  /-- A tree is read back from its text just if the text is not nested too deeply. -/
  text : ∀ a, lib.fromText (lib.toText a) =
    if (lib.serialize a).nesting < recursionLimit then some a else none
  /-- So it is from the text of what is left of its value. -/
  sparseText : ∀ a j, Sparse (lib.serialize a) j →
    lib.fromText (lib.write j) = if j.nesting < recursionLimit then some a else none
  /-- Different trees have different texts, however deeply they are nested. -/
  injective : ∀ a b, lib.toText a = lib.toText b → a = b

/-- Trees that a reader finds in their forms are known from what a lawful library writes. -/
theorem Lossless.of_readAt [JsonForm α] {lib : JsonLibrary α} (lawful : lib.Lawful)
    (h : ∀ (a : α) (n : ℕ), ReadAt n (JsonForm.reader (upTo n)) (JsonForm.encode a) a) : lib.Lossless := by
  have plain : ∀ a j, Sparse (lib.serialize a) j → j.plain = true := by
    intro a j sparse
    rw [lawful.serialize] at sparse
    exact sparse.plain _ (h a 0).plain
  have value : ∀ a j, Sparse (lib.serialize a) j → lib.deserialize j = some a := by
    intro a j sparse
    refine lawful.deserialize j a (plain a j sparse) ?_
    rw [lawful.serialize] at sparse
    exact (h a j.depth).read sparse le_rfl
  have text : ∀ a j, Sparse (lib.serialize a) j →
      lib.fromText (lib.write j) = if j.nesting < recursionLimit then some a else none := by
    intro a j sparse
    rw [fromText, lawful.write j (plain a j sparse), lawful.read j (plain a j sparse)]
    by_cases shallow : j.nesting < recursionLimit <;> simp [shallow, value a j sparse]
  refine ⟨fun a => value a _ (.refl _), fun a => value a _ (sparse_dropNulls _), value,
    fun a => text a _ (.refl _), text, fun a b same => ?_⟩
  have written : ∀ c, lib.toText c = (lib.serialize c).text :=
    fun c => lawful.write _ (plain c _ (.refl _))
  rw [written, written] at same
  have values := text_inj (plain a _ (.refl _)) (plain b _ (.refl _)) same
  have found := value a _ (.refl _)
  rw [values, value b _ (.refl _)] at found
  exact (Option.some.inj found).symm

end JsonLibrary

open Json JsonLibrary

theorem Statement.lossless {lib : JsonLibrary Statement} (lawful : lib.Lawful) : lib.Lossless :=
  .of_readAt lawful fun s n => (s.readAt (n + 1)).mono

theorem Expr.lossless {lib : JsonLibrary Expr} (lawful : lib.Lawful) : lib.Lossless :=
  .of_readAt lawful fun e n => (e.readAt (n + 1)).mono

/-- A sum of ones, with as many signs. -/
def Expr.ones : (signs : ℕ) → Expr
  | 0 => .number "1"
  | signs + 1 => .binary (ones signs) .plus (.number "1")

theorem Expr.nesting_ones (signs : ℕ) : (ones signs).encode.nesting = 2 * signs + 2 := by
  induction signs with
  | zero => rfl
  | succ signs ih =>
    have one : (number "1").encode.nesting = 2 := rfl
    simp [ones, Expr.encode, variant, nesting, nestingOfFields, ih, one]
    omega

/-- A sum is read back from its text if it has no more than sixty-three ones.  No such bound holds for its
value. -/
theorem Expr.fromText_ones {lib : JsonLibrary Expr} (lawful : lib.Lawful) (signs : ℕ) :
    lib.fromText (lib.toText (ones signs)) = if signs < 63 then some (ones signs) else none := by
  have shallow : 2 * signs + 2 < recursionLimit ↔ signs < 63 := by
    rw [recursionLimit]
    omega
  have nesting : (lib.serialize (ones signs)).nesting = 2 * signs + 2 := by
    rw [lawful.serialize]
    exact nesting_ones signs
  rw [(Expr.lossless lawful).text, nesting]
  simp only [shallow]

end CanonicalSql
