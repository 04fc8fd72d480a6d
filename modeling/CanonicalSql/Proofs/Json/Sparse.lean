import Mathlib
import CanonicalSql.Json.Form

/-! JSON values from which fields are left out that are `null`.  A reader of trees finds the same tree in
every such value; `ReadAt` says this of a reader and what it is to find, and there is one rule for it for
each shape of a value. -/

namespace CanonicalSql

namespace Json

mutual

/-- Whether the second value is the first one without some of the fields that are `null`, inside it as well. -/
inductive Sparse : Json → Json → Prop
  | null : Sparse .null .null
  | bool {value : Bool} : Sparse (.bool value) (.bool value)
  | natural {n : Nat} : Sparse (.natural n) (.natural n)
  | number {text : String} : Sparse (.number text) (.number text)
  | string {value : String} : Sparse (.string value) (.string value)
  | array {items items' : List Json} : SparseItems items items' → Sparse (.array items) (.array items')
  | object {fields fields' : List (String × Json)} :
      SparseFields fields fields' → Sparse (.object fields) (.object fields')

/-- Whether the items of the second list are those of the first, each without such fields. -/
inductive SparseItems : List Json → List Json → Prop
  | nil : SparseItems [] []
  | cons {item item' : Json} {items items' : List Json} :
      Sparse item item' → SparseItems items items' → SparseItems (item :: items) (item' :: items')

/-- Whether the fields of the second list are those of the first without some that are `null`. -/
inductive SparseFields : List (String × Json) → List (String × Json) → Prop
  | nil : SparseFields [] []
  | keep {key : String} {value value' : Json} {fields fields' : List (String × Json)} :
      Sparse value value' → SparseFields fields fields' →
      SparseFields ((key, value) :: fields) ((key, value') :: fields')
  | drop {key : String} {fields fields' : List (String × Json)} :
      SparseFields fields fields' → SparseFields ((key, .null) :: fields) fields'

end

mutual

theorem Sparse.refl : (j : Json) → Sparse j j
  | .null => .null
  | .bool _ => .bool
  | .natural _ => .natural
  | .number _ => .number
  | .string _ => .string
  | .array items => .array (SparseItems.refl items)
  | .object fields => .object (SparseFields.refl fields)

theorem SparseItems.refl : (items : List Json) → SparseItems items items
  | [] => .nil
  | item :: items => .cons (Sparse.refl item) (SparseItems.refl items)

theorem SparseFields.refl : (fields : List (String × Json)) → SparseFields fields fields
  | [] => .nil
  | (_, value) :: fields => .keep (Sparse.refl value) (SparseFields.refl fields)

end

mutual

/-- The value without the fields that are `null`, inside it as well. -/
def dropNulls : Json → Json
  | .array items => .array (dropNullsInItems items)
  | .object fields => .object (dropNullFields fields)
  | j => j

/-- The items without the fields that are `null`. -/
def dropNullsInItems : List Json → List Json
  | [] => []
  | item :: items => item.dropNulls :: dropNullsInItems items

/-- The fields that are not `null`, without such fields inside them. -/
def dropNullFields : List (String × Json) → List (String × Json)
  | [] => []
  | (_, .null) :: fields => dropNullFields fields
  | (key, value) :: fields => (key, value.dropNulls) :: dropNullFields fields

end

mutual

theorem sparse_dropNulls : (j : Json) → Sparse j j.dropNulls
  | .null => .null
  | .bool _ => .bool
  | .natural _ => .natural
  | .number _ => .number
  | .string _ => .string
  | .array items => .array (sparseItems_dropNulls items)
  | .object fields => .object (sparseFields_dropNulls fields)

theorem sparseItems_dropNulls : (items : List Json) → SparseItems items (dropNullsInItems items)
  | [] => .nil
  | item :: items => .cons (sparse_dropNulls item) (sparseItems_dropNulls items)

theorem sparseFields_dropNulls : (fields : List (String × Json)) →
    SparseFields fields (dropNullFields fields)
  | [] => .nil
  | (_, value) :: fields => by
    have others := sparseFields_dropNulls fields
    have here := sparse_dropNulls value
    unfold dropNullFields
    split
    · next h => cases h
    · next h =>
      cases h
      exact .drop others
    · next h =>
      cases h
      exact .keep here others

end

/-! ### Fields -/

theorem depth_pos (j : Json) : 0 < j.depth := by
  cases j <;> simp [depth]

section

variable {fields fields' : List (String × Json)} {key : String} {value : Json}

theorem SparseFields.keys (h : SparseFields fields fields') :
    (fields'.map Prod.fst).Sublist (fields.map Prod.fst) := by
  induction fields generalizing fields' with
  | nil =>
    cases h
    exact .slnil
  | cons field fields ih =>
    cases h with
    | keep _ others => exact (ih others).cons_cons _
    | drop others => exact (ih others).cons _

/-- A field is found in what is left, unless it is `null`. -/
theorem SparseFields.lookup (h : SparseFields fields fields') (distinct : (fields.map Prod.fst).Nodup)
    (mem : (key, value) ∈ fields) :
    (∃ value', fields'.lookup key = some value' ∧ Sparse value value') ∨
      fields'.lookup key = none ∧ value = .null := by
  induction fields generalizing fields' with
  | nil => simp at mem
  | cons field fields ih =>
    rw [List.map_cons, List.nodup_cons] at distinct
    rcases List.mem_cons.1 mem with rfl | inside
    · cases h with
      | keep same _ => exact .inl ⟨_, by simp, same⟩
      | drop others =>
        refine .inr ⟨List.lookup_eq_none_iff.2 fun p hp => ?_, rfl⟩
        rw [bne_iff_ne]
        rintro rfl
        exact distinct.1 (others.keys.subset (List.mem_map.2 ⟨p, hp, rfl⟩))
    · cases h with
      | @keep k _ _ _ _ _ others =>
        have other : (key == k) = false := by
          rw [beq_eq_false_iff_ne]
          rintro rfl
          exact distinct.1 (List.mem_map.2 ⟨_, inside, rfl⟩)
        simpa [List.lookup, other] using ih others distinct.2 inside
      | drop others => exact ih others distinct.2 inside

mutual

/-- What is left of a value that is known from its text is known from its own. -/
theorem Sparse.plain : (j : Json) → ∀ {j' : Json}, Sparse j j' → j.plain = true → j'.plain = true
  | .null, _, .null, h | .bool _, _, .bool, h | .natural _, _, .natural, h | .number _, _, .number, h
  | .string _, _, .string, h => h
  | .array items, _, .array sparse, h => by
    rw [Json.plain] at h ⊢
    exact SparseItems.plain items sparse h
  | .object fields, _, .object sparse, h => by
    rw [Json.plain, Bool.and_eq_true, decide_eq_true_eq] at h ⊢
    exact ⟨h.1.sublist sparse.keys, SparseFields.plain fields sparse h.2⟩

theorem SparseItems.plain : (items : List Json) → ∀ {items' : List Json}, SparseItems items items' →
    plainItems items = true → plainItems items' = true
  | [], _, .nil, h => h
  | item :: items, _, .cons same others, h => by
    rw [plainItems, Bool.and_eq_true] at h ⊢
    exact ⟨Sparse.plain item same h.1, SparseItems.plain items others h.2⟩

theorem SparseFields.plain : (fields : List (String × Json)) → ∀ {fields' : List (String × Json)},
    SparseFields fields fields' → plainFields fields = true → plainFields fields' = true
  | [], _, .nil, h => h
  | (_, value) :: fields, _, .keep same others, h => by
    rw [plainFields, Bool.and_eq_true] at h ⊢
    exact ⟨Sparse.plain value same h.1, SparseFields.plain fields others h.2⟩
  | _ :: fields, _, .drop others, h => by
    rw [plainFields, Bool.and_eq_true] at h
    exact SparseFields.plain fields others h.2

end

theorem depth_of_lookup (h : fields.lookup key = some value) : value.depth ≤ depthOfFields fields := by
  induction fields with
  | nil => cases h
  | cons field fields ih =>
    obtain ⟨k, v⟩ := field
    rw [List.lookup] at h
    rw [depthOfFields]
    split at h
    · cases h
      exact Nat.le_max_left _ _
    · exact Nat.le_trans (ih h) (Nat.le_max_right _ _)

end

/-! ### Readers -/

@[simp] theorem plain_string (value : String) : (string value).plain = true := rfl

@[simp] theorem plain_bool (value : Bool) : (bool value).plain = true := rfl

section

variable {α β : Type} {n : Nat} {value? : Json → Option α} {j : Json} {a : α}

/-- Whether a reader finds `a` in a value, and in every value of no more than a depth that is left of it
without some fields that are `null`. -/
structure ReadAt (n : Nat) (value? : Json → Option α) (j : Json) (a : α) : Prop where
  ne_null : j ≠ .null
  plain : j.plain = true
  read : ∀ {j' : Json}, Sparse j j' → j'.depth ≤ n → value? j' = some a

/-- Whether a part that may be absent is either `null`, or what a reader finds it in. -/
inductive OptionalAt (n : Nat) (value? : Json → Option α) : Json → Option α → Prop
  | none : OptionalAt n value? .null none
  | some {j : Json} {a : α} : ReadAt n value? j a → OptionalAt n value? j (some a)

/-- Whether a reader finds the trees of a list in the items, one in each. -/
inductive ItemsAt (n : Nat) (value? : Json → Option α) : List Json → List α → Prop
  | nil : ItemsAt n value? [] []
  | cons {j : Json} {a : α} {js : List Json} {as : List α} :
      ReadAt n value? j a → ItemsAt n value? js as → ItemsAt n value? (j :: js) (a :: as)

/-- What is left of the fields of a record: some that are `null` are missing. -/
structure FieldsAt (n : Nat) (fields left : List (String × Json)) : Prop where
  sparse : SparseFields fields left
  within : depthOfFields left ≤ n
  distinct : (fields.map Prod.fst).Nodup

theorem ReadAt.mono (h : ReadAt (n + 1) value? j a) : ReadAt n value? j a :=
  ⟨h.ne_null, h.plain, fun sparse within => h.read sparse (Nat.le_succ_of_le within)⟩

/-- No value has depth zero, so a reader for each depth may be looked at one level down. -/
theorem ReadAt.of_succ {reader : Nat → Json → Option α}
    (h : ∀ n, ReadAt (n + 1) (reader (n + 1)) j a) : ∀ n, ReadAt n (reader n) j a
  | 0 => ⟨(h 0).ne_null, (h 0).plain, fun {j'} _ within => absurd within (Nat.not_le.2 (depth_pos j'))⟩
  | n + 1 => h n

theorem OptionalAt.plain {o : Option α} (h : OptionalAt n value? j o) : j.plain = true := by
  cases h with
  | none => rfl
  | some h => exact h.plain

theorem ItemsAt.plain {js : List Json} {as : List α} (h : ItemsAt n value? js as) :
    plainItems js = true := by
  induction h with
  | nil => rfl
  | cons first _ ih => simp [plainItems, first.plain, ih]

theorem ItemsAt.mapM {js js' : List Json} {as : List α} (h : ItemsAt n value? js as)
    (sparse : SparseItems js js') (within : depthOfItems js' ≤ n) : js'.mapM value? = some as := by
  induction h generalizing js' with
  | nil =>
    cases sparse
    rfl
  | cons first _ ih =>
    cases sparse with
    | cons same others =>
      obtain ⟨here, behind⟩ := Nat.max_le.1 (show max _ _ ≤ n from within)
      simp [first.read same here, ih others behind]

theorem ItemsAt.of_map {encode : α → Json} (h : ∀ a, ReadAt n value? (encode a) a) :
    (as : List α) → ItemsAt n value? (as.map encode) as
  | [] => .nil
  | a :: as => .cons (h a) (of_map h as)

theorem OptionalAt.of_optional {encode : α → Json} (h : ∀ a, ReadAt n value? (encode a) a) :
    (o : Option α) → OptionalAt n value? (.optional encode o) o
  | Option.none => .none
  | Option.some a => .some (h a)

namespace FieldsAt

variable {fields left : List (String × Json)}

theorem field? (h : FieldsAt n fields left) (key : String) (mem : (key, j) ∈ fields)
    (value : ReadAt n value? j a) : Json.field? left key value? = some a := by
  rcases h.sparse.lookup h.distinct mem with ⟨j', found, sparse⟩ | ⟨-, null⟩
  · have within := Nat.le_trans (depth_of_lookup found) h.within
    simp [Json.field?, found, value.read sparse within]
  · exact absurd null value.ne_null

theorem optionalField? {o : Option α} (h : FieldsAt n fields left) (key : String)
    (mem : (key, j) ∈ fields) (value : OptionalAt n value? j o) :
    Json.optionalField? left key value? = some o := by
  rcases h.sparse.lookup h.distinct mem with ⟨j', found, sparse⟩ | ⟨missing, rfl⟩
  · cases value with
    | none =>
      cases sparse
      simp [Json.optionalField?, found]
    | some value =>
      have within := Nat.le_trans (depth_of_lookup found) h.within
      have other : j' ≠ .null := by
        rintro rfl
        cases sparse
        exact value.ne_null rfl
      simp [Json.optionalField?, found, value.read sparse within]
  · cases value with
    | none => simp [Json.optionalField?, missing]
    | some value => exact absurd rfl value.ne_null

end FieldsAt

/-! ### Shapes of values -/

namespace ReadAt

theorem record {fields : List (String × Json)} (distinct : (fields.map Prod.fst).Nodup)
    (plain : plainFields fields = true)
    (read : ∀ {left}, FieldsAt n fields left → value? (.object left) = some a) :
    ReadAt (n + 1) value? (.object fields) a where
  ne_null := by simp
  plain := by simp [Json.plain, distinct, plain]
  read sparse within := by
    cases sparse with
    | object sparse => exact read ⟨sparse, by simpa [depth] using within, distinct⟩

theorem variant {b : β} {content? : Json → Option β} {name : String} {content : Json}
    (h : ReadAt n content? content b)
    (read : ∀ {left}, content? left = some b → value? (.object [(name, left)]) = some a) :
    ReadAt (n + 1) value? (.variant name content) a :=
  record (by simp) (by simp [plainFields, h.plain]) fun fields => by
    obtain ⟨sparse, within, -⟩ := fields
    cases sparse with
    | drop => exact absurd rfl h.ne_null
    | keep same others =>
      cases others
      exact read (h.read same (by simpa [depthOfFields] using within))

/-- A choice whose content is a record. -/
theorem variantRecord {name : String} {fields : List (String × Json)}
    (distinct : (fields.map Prod.fst).Nodup) (plain : plainFields fields = true)
    (read : ∀ {left}, FieldsAt n fields left → value? (.object [(name, .object left)]) = some a) :
    ReadAt (n + 1) value? (.variant name (.object fields)) a := by
  have content : ReadAt n (fun content => value? (.object [(name, content)])) (.object fields) a :=
    .mono (.record distinct plain read)
  exact .variant content fun h => h

theorem string (value : String) : ReadAt n string? (.string value) value where
  ne_null := by simp
  plain := rfl
  read sparse _ := by cases sparse; rfl

theorem bool (value : Bool) : ReadAt n bool? (.bool value) value where
  ne_null := by simp
  plain := rfl
  read sparse _ := by cases sparse; rfl

/-- A choice without content. -/
theorem name {name : String} (h : value? (.string name) = some a) : ReadAt n value? (.string name) a where
  ne_null := by simp
  plain := rfl
  read sparse _ := by cases sparse; exact h

theorem list {js : List Json} {as : List α} (h : ItemsAt n value? js as) :
    ReadAt (n + 1) (list? value?) (.array js) as where
  ne_null := by simp
  plain := by rw [Json.plain, h.plain]
  read sparse within := by
    cases sparse with
    | array sparse => exact h.mapM sparse (by simpa [depth] using within)

theorem choice {values : List α} {name : α → String}
    (found : values.find? (fun value => name value == name a) = some a) :
    ReadAt n (choice? values name) (.string (name a)) a :=
  .name found

theorem strings (values : List String) : ReadAt (n + 1) (list? string?) (.strings values) values :=
  .list (.of_map .string values)

end ReadAt

theorem OptionalAt.string (o : Option String) : OptionalAt n string? (.optionalString o) o := by
  cases o with
  | none => exact .none
  | some value => exact .some (.string value)

/-- A choice without content that may be absent. -/
theorem OptionalAt.choice {values : List α} {name : α → String}
    (found : ∀ a, values.find? (fun value => name value == name a) = Option.some a) (o : Option α) :
    OptionalAt n (choice? values name) (.optionalString (o.map name)) o := by
  cases o with
  | none => exact .none
  | some a => exact .some (.choice (found a))

end

/-! ### Trees inside one another -/

open TreeReader

variable {j : Json}

theorem readAt_expr {e : Expr} (h : ∀ n, ReadAt (n + 1) (upTo n).exprRule j e) :
    ∀ n, ReadAt n (upTo n).expr j e :=
  ReadAt.of_succ h

theorem readAt_query {q : Query} (h : ∀ n, ReadAt (n + 1) (upTo n).queryRule j q) :
    ∀ n, ReadAt n (upTo n).query j q :=
  ReadAt.of_succ h

theorem readAt_body {b : QueryBody} (h : ∀ n, ReadAt (n + 1) (upTo n).bodyRule j b) :
    ∀ n, ReadAt n (upTo n).body j b :=
  ReadAt.of_succ h

theorem readAt_dataType {type : DataType} (h : ∀ n, ReadAt (n + 1) (upTo n).dataTypeRule j type) :
    ∀ n, ReadAt n (upTo n).dataType j type :=
  ReadAt.of_succ h

theorem readAt_statement {s : Statement} (h : ∀ n, ReadAt (n + 1) (upTo n).statementRule j s) :
    ∀ n, ReadAt n (upTo n).statement j s :=
  ReadAt.of_succ h

end Json

end CanonicalSql
