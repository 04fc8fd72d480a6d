import CanonicalSql.Text.Position

/-! Texts between quotes: string literals and quoted names.  Each kind has an encoding, which
writes a value between quotes, and a reader, which resolves the quotes of everything that can be
written. -/

namespace CanonicalSql

/-- What a reader found behind an opening quote: the value, the characters read with the closing
quote last, and the characters behind it. -/
structure Enclosed where
  value : List Char
  read : List Char
  rest : List Char

/-- The reading of `source` characters that stand for `value`, in front of what `e` read. -/
def Enclosed.prepend (value source : List Char) (e : Enclosed) : Enclosed :=
  ⟨value ++ e.value, source ++ e.read, e.rest⟩

/-- The characters that were read and those behind them. -/
def Enclosed.all (e : Enclosed) : List Char := e.read ++ e.rest

@[simp] theorem Enclosed.all_prepend (value source : List Char) (e : Enclosed) :
    (e.prepend value source).all = source ++ e.all := by
  simp [all, prepend]

namespace StringLiteral

/-- What the pair of a backslash and `c` stands for: one character for the pairs that are escapes,
and the pair itself for all others. -/
def escapedPair (c : Char) : List Char :=
  if c = 'n' then ['\n']
  else if c = 't' then ['\t']
  else if c = 'r' then ['\r']
  else if c = '0' then ['\x00']
  else if c = '\\' || c = '\'' || c = '"' then [c]
  else ['\\', c]

/-- Reads a string literal from behind its opening quote.  A doubled quote stands for one quote, and
there is no reading where no quote closes the literal. -/
def read? : List Char → Option Enclosed
  | [] => none
  | '\'' :: '\'' :: cs => (read? cs).map (Enclosed.prepend ['\''] ['\'', '\''])
  | '\'' :: cs => some ⟨[], ['\''], cs⟩
  | ['\\'] => none
  | '\\' :: c :: cs => (read? cs).map (Enclosed.prepend (escapedPair c) ['\\', c])
  | c :: cs => (read? cs).map (Enclosed.prepend [c] [c])

/-- How a literal is passed over: quotes and backslashes by themselves, and at once what stands
between them, the character behind a backslash included. -/
def strides : List Char → List Stride
  | [] => []
  | '\\' :: c :: cs => .alone '\\' :: .within c :: strides cs
  | c :: cs => (if c = '\'' || c = '\\' then .alone c else .within c) :: strides cs

/-- The literal's characters between its quotes: quotes and backslashes are doubled. -/
def body : List Char → List Char
  | [] => []
  | c :: cs => if c = '\'' || c = '\\' then c :: c :: body cs else c :: body cs

/-- The literal of the value `cs`. -/
def encode (cs : List Char) : List Char := '\'' :: body cs ++ ['\'']

@[simp] theorem chars_strides (cs : List Char) : (strides cs).map Stride.char = cs := by
  fun_induction strides cs with
  | case1 => rfl
  | case2 c cs ih => simp [ih]
  | case3 c cs _ ih =>
    rw [List.map_cons, ih]
    split <;> rfl

/-- Reading loses no character and adds none. -/
theorem all_of_read? {cs : List Char} {e : Enclosed} (h : read? cs = some e) : e.all = cs := by
  fun_induction read? cs generalizing e with
  | case1 => simp at h
  | case2 cs ih =>
    obtain ⟨e', h', rfl⟩ := Option.map_eq_some_iff.1 h
    simp [ih h']
  | case3 cs => cases h; rfl
  | case4 => simp at h
  | case5 c cs ih =>
    obtain ⟨e', h', rfl⟩ := Option.map_eq_some_iff.1 h
    simp [ih h']
  | case6 c cs _ _ _ _ ih =>
    obtain ⟨e', h', rfl⟩ := Option.map_eq_some_iff.1 h
    simp [ih h']

/-- The body of a value reads back as the value where no further quote follows the closing one. -/
theorem read?_body (cs : List Char) {rest : List Char} (h : rest.head? ≠ some '\'') :
    read? (body cs ++ '\'' :: rest) = some ⟨cs, body cs ++ ['\''], rest⟩ := by
  induction cs with
  | nil =>
    cases rest with
    | nil => rfl
    | cons d rest =>
      simp_all [body, read?]
  | cons c cs ih =>
    by_cases hq : c = '\''
    · simp [body, hq, read?, ih, Enclosed.prepend]
    by_cases hb : c = '\\'
    · simp [body, hb, read?, ih, Enclosed.prepend, escapedPair]
    · simp [body, hq, hb, read?, ih, Enclosed.prepend]

end StringLiteral

namespace QuotedName

/-- Reads a name from behind its opening `quote`, which stands doubled for itself inside. -/
def read? (quote : Char) : List Char → Option Enclosed
  | [] => none
  | c :: cs =>
    if c = quote then
      match cs with
      | [] => some ⟨[], [quote], []⟩
      | d :: cs =>
        if d = quote then (read? quote cs).map (Enclosed.prepend [quote] [quote, quote])
        else some ⟨[], [quote], d :: cs⟩
    else (read? quote cs).map (Enclosed.prepend [c] [c])

/-- How a name is passed over, its opening quote included: the quotes by themselves, and at once what
stands between them. -/
def strides : List Char → List Stride
  | [] => []
  | quote :: cs => .alone quote :: cs.map fun c => if c = quote then .alone c else .within c

/-- The name's characters between its double quotes: a double quote is doubled. -/
def body : List Char → List Char
  | [] => []
  | c :: cs => if c = '"' then c :: c :: body cs else c :: body cs

/-- The name `cs` between double quotes. -/
def encode (cs : List Char) : List Char := '"' :: body cs ++ ['"']

@[simp] theorem chars_strides (cs : List Char) : (strides cs).map Stride.char = cs := by
  cases cs with
  | nil => rfl
  | cons quote cs =>
    have each : ∀ c, (if c = quote then Stride.alone c else .within c).char = c := by
      intro c
      split <;> rfl
    simp [strides, Function.comp_def, each]

/-- Reading loses no character and adds none. -/
theorem all_of_read? {quote : Char} {cs : List Char} {e : Enclosed}
    (h : read? quote cs = some e) : e.all = cs := by
  fun_induction read? quote cs generalizing e with
  | case1 => simp at h
  | case2 => cases h; rfl
  | case3 cs ih =>
    obtain ⟨e', h', rfl⟩ := Option.map_eq_some_iff.1 h
    simp [ih h']
  | case4 => cases h; rfl
  | case5 c cs _ ih =>
    obtain ⟨e', h', rfl⟩ := Option.map_eq_some_iff.1 h
    simp [ih h']

/-- The body of a name reads back as the name where no further quote follows the closing one. -/
theorem read?_body (cs : List Char) {rest : List Char} (h : rest.head? ≠ some '"') :
    read? '"' (body cs ++ '"' :: rest) = some ⟨cs, body cs ++ ['"'], rest⟩ := by
  induction cs with
  | nil =>
    cases rest with
    | nil => rfl
    | cons d rest => simp_all [body, read?]
  | cons c cs ih =>
    by_cases hq : c = '"'
    · simp [body, hq, read?, ih, Enclosed.prepend]
    · rw [body, if_neg hq, List.cons_append, read?.eq_def]
      simp [hq, ih, Enclosed.prepend]

end QuotedName

end CanonicalSql
