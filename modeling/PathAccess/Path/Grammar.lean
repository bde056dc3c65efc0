import PathAccess.Path.Reader
/-!
# The grammar of paths

The texts that are paths, and the elements that they stand for, said without reading. Each relation
ties a text to what it means; texts are put together from the texts of their parts. Nothing here
tells where one part ends and the next begins: that this is never in doubt is what the reader
shows.
-/

-- powers are those of the core library, also where others are in scope
attribute [local instance (2000)] instPowNat

namespace PathAccess.Path.Grammar

/-- Nothing but layout. -/
def Layout (cs : List Char) : Prop :=
  ∀ c ∈ cs, Text.isLayout c = true

/-- A name in dotted form. -/
def Name (cs : List Char) : Prop :=
  cs ≠ [] ∧ ∀ c ∈ cs, isNameChar c = true

/-- A name between quotes of one kind, which it does not hold. -/
inductive QuotedName : List Char → String → Prop where
  | mk {q : Char} {body : List Char} : q = '\'' ∨ q = '"' → q ∉ body →
      QuotedName (q :: body ++ [q]) (String.ofList body)

/-- Decimal digits, of which there is at least one. -/
def Digits (cs : List Char) : Prop :=
  cs ≠ [] ∧ ∀ c ∈ cs, c.isDigit = true

/-- An index: an optional sign and digits, in the range of signed 64-bit integers. -/
inductive Index : List Char → Int → Prop where
  | bare {cs : List Char} : Digits cs → (Text.digitsValue cs : Int) < 2 ^ (63 : Nat) →
      Index cs (Text.digitsValue cs)
  | plus {cs : List Char} : Digits cs → (Text.digitsValue cs : Int) < 2 ^ (63 : Nat) →
      Index ('+' :: cs) (Text.digitsValue cs)
  | minus {cs : List Char} : Digits cs → (Text.digitsValue cs : Int) ≤ 2 ^ (63 : Nat) →
      Index ('-' :: cs) (-Text.digitsValue cs)

/-- At least one part, with commas between and layout around the commas. -/
inductive CommaList {α : Type} (Item : List Char → α → Prop) : List Char → List α → Prop where
  | one {t : List Char} {a : α} : Item t a → CommaList Item t [a]
  | cons {t before behind rest : List Char} {a : α} {as : List α} :
      Item t a → Layout before → Layout behind → CommaList Item rest as →
      CommaList Item (t ++ before ++ ',' :: behind ++ rest) (a :: as)

/-- A bound of a slice, which may be missing, with layout around it. -/
inductive Bound : List Char → Option Int → Prop where
  | missing : Bound [] none
  | given {before t behind : List Char} {i : Int} :
      Layout before → Index t i → Layout behind → Bound (before ++ t ++ behind) (some i)

/-- The step of a slice, which may be missing with its colon or behind it. -/
inductive SliceStep : List Char → Option Int → Prop where
  | missing : SliceStep [] none
  | given {t : List Char} {step : Option Int} : Bound t step → SliceStep (':' :: t) step

/-- Text in which parentheses come in pairs and every quote is closed. -/
inductive Balanced : List Char → Prop where
  | nil : Balanced []
  | plain {c : Char} {rest : List Char} :
      c ≠ '\'' → c ≠ '"' → c ≠ '(' → c ≠ ')' → Balanced rest → Balanced (c :: rest)
  | quoted {q : Char} {body rest : List Char} :
      q = '\'' ∨ q = '"' → q ∉ body → Balanced rest → Balanced (q :: body ++ q :: rest)
  | nested {body rest : List Char} :
      Balanced body → Balanced rest → Balanced ('(' :: body ++ ')' :: rest)

/-- The content of a bracket. -/
inductive Body : List Char → Element → Prop where
  | filter {t : List Char} : Balanced t →
      Body ('?' :: '(' :: t ++ [')']) (.filter (String.ofList (Text.trim t)))
  | script {t : List Char} : Balanced t →
      Body ('(' :: t ++ [')']) (.expression (String.ofList (Text.trim t)))
  | anyIndex : Body ['*'] .anyArrayIndex
  | name {t : List Char} {n : String} : QuotedName t n → Body t (.property n)
  | names {t : List Char} {m n : String} {rest : List String} :
      CommaList QuotedName t (m :: n :: rest) → Body t (.propertyList (m :: n :: rest))
  | slice {a b c : List Char} {start stop step : Option Int} :
      Bound a start → Bound b stop → SliceStep c step →
      Body (a ++ ':' :: b ++ c) (.arraySlice start stop step)
  | index {t : List Char} {i : Int} : Index t i → Body t (.arrayIndex i)
  | indexes {t : List Char} {i j : Int} {rest : List Int} :
      CommaList Index t (i :: j :: rest) → Body t (.arrayIndexList (i :: j :: rest))

/-- A bracket, with layout around its content. -/
inductive Bracket : List Char → Element → Prop where
  | mk {before t behind : List Char} {e : Element} :
      Layout before → Body t e → Layout behind →
      Bracket ('[' :: before ++ t ++ behind ++ [']']) e

/-- What may follow a dot. -/
inductive Member : List Char → Element → Prop where
  | any : Member ['*'] .anyProperty
  | name {t : List Char} : Name t → t.head? ≠ some '*' → Member t (.property (String.ofList t))

/-- A segment, which stands for one element or for a descent and its target. -/
inductive Segment : List Char → List Element → Prop where
  | dotted {t : List Char} {e : Element} : Member t e → Segment ('.' :: t) [e]
  | bracket {t : List Char} {e : Element} : Bracket t e → Segment t [e]
  | descent {t : List Char} {e : Element} : Member t e ∨ Bracket t e →
      Segment ('.' :: '.' :: t) [.recursiveDescent, e]

/-- Segments behind each other. -/
inductive Segments : List Char → List Element → Prop where
  | nil : Segments [] []
  | cons {t rest : List Char} {es more : List Element} :
      Segment t es → Segments rest more → Segments (t ++ rest) (es ++ more)

/-- A first name, which may be missing, and segments. -/
inductive Relative : List Char → List Element → Prop where
  | bare {t : List Char} {es : List Element} : Segments t es → Relative t es
  | named {n t : List Char} {es : List Element} : Name n → Segments t es →
      Relative (n ++ t) (.property (String.ofList n) :: es)

/-- A path without blanks at its ends, and its elements behind the root. The root sign may be left
out where the text does not begin with it. -/
inductive Derives : List Char → List Element → Prop where
  | rooted {t : List Char} {es : List Element} : Relative t es → Derives ('$' :: t) es
  | unrooted {t : List Char} {es : List Element} : Relative t es → t.head? ≠ some '$' → Derives t es

end PathAccess.Path.Grammar
