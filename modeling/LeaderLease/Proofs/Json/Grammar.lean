import LeaderLease.Json.Scan
import LeaderLease.Proofs.Json.Integer

/-!
# The grammar of JSON texts

A text is a tree whose nodes keep how they are spelled: every white space, every escape and every digit. Whoever writes
a text chooses among the spellings, and what it says is read off the tree.
-/

namespace LeaderLease.Json

structure Blanks where
  chars : List Char
  areBlank : ∀ c ∈ chars, c = ' ' ∨ c = '\t' ∨ c = '\n' ∨ c = '\r'

def Blanks.none : Blanks := ⟨[], fun _ hc => nomatch hc⟩

def Blanks.space : Blanks := ⟨[' '], fun _ hc => .inl (List.mem_singleton.mp hc)⟩

structure HexDigit where
  char : Char
  isHex : '0' ≤ char ∧ char ≤ '9' ∨ 'A' ≤ char ∧ char ≤ 'F' ∨ 'a' ≤ char ∧ char ≤ 'f'

def HexDigit.value (d : HexDigit) : Nat :=
  if d.char ≤ '9' then d.char.toNat - '0'.toNat
  else if d.char ≤ 'F' then d.char.toNat - 'A'.toNat + 10
  else d.char.toNat - 'a'.toNat + 10

namespace HexDigit

theorem isHex_digitChar : ∀ n < 16, '0' ≤ Nat.digitChar n ∧ Nat.digitChar n ≤ '9' ∨
    'A' ≤ Nat.digitChar n ∧ Nat.digitChar n ≤ 'F' ∨ 'a' ≤ Nat.digitChar n ∧ Nat.digitChar n ≤ 'f' := by decide

def ofNat (n : Nat) : HexDigit := ⟨Nat.digitChar (n % 16), isHex_digitChar _ (Nat.mod_lt n (by decide))⟩

theorem value_ofNat (n : Nat) : (ofNat n).value = n % 16 := by
  have hall : ∀ (m : Nat) (hm : m < 16), value ⟨Nat.digitChar m, isHex_digitChar m hm⟩ = m := by decide
  exact hall (n % 16) (Nat.mod_lt n (by decide))

end HexDigit

structure CodeUnit where
  first : HexDigit
  second : HexDigit
  third : HexDigit
  fourth : HexDigit

namespace CodeUnit

def chars (u : CodeUnit) : List Char := [u.first.char, u.second.char, u.third.char, u.fourth.char]

def value (u : CodeUnit) : Nat :=
  ((u.first.value * 16 + u.second.value) * 16 + u.third.value) * 16 + u.fourth.value

def ofNat (n : Nat) : CodeUnit := ⟨.ofNat (n / 0x1000), .ofNat (n / 0x100), .ofNat (n / 0x10), .ofNat n⟩

theorem value_ofNat {n : Nat} (hn : n < 0x10000) : (ofNat n).value = n := by
  unfold value ofNat
  rw [HexDigit.value_ofNat, HexDigit.value_ofNat, HexDigit.value_ofNat, HexDigit.value_ofNat]
  omega

/-- The character beyond the first `0x10000` that two surrogates stand for. -/
def paired (leading trailing : CodeUnit) : Char :=
  .ofNat (0x10000 + (leading.value - 0xD800) * 0x400 + (trailing.value - 0xDC00))

end CodeUnit

/-- The characters that a letter after a backslash stands for. -/
def shortEscapes : List (Char × Char) :=
  [('"', '"'), ('\\', '\\'), ('/', '/'), ('b', '\x08'), ('f', '\x0C'), ('n', '\n'), ('r', '\r'), ('t', '\t')]

/-- One step in spelling a text: a character as it stands, or a whole escape. -/
inductive Glyph where
  | plain (c : Char) (isPlain : ¬c < ' ' ∧ c ≠ '"' ∧ c ≠ '\\')
  | short (letter c : Char) (isEscape : (letter, c) ∈ shortEscapes)
  | coded (u : CodeUnit)

namespace Glyph

def chars : Glyph → List Char
  | plain c _ => [c]
  | short letter _ _ => ['\\', letter]
  | coded u => '\\' :: 'u' :: u.chars

/-- The text that is spelled. A surrogate alone spells none. -/
def text? : List Glyph → Option (List Char)
  | [] => some []
  | plain c _ :: more => (text? more).map (c :: ·)
  | short _ c _ :: more => (text? more).map (c :: ·)
  | coded u :: coded v :: more =>
      if isLeadingSurrogate u.value then
        if isTrailingSurrogate v.value then (text? more).map (u.paired v :: ·) else none
      else if isTrailingSurrogate u.value then none
      else (text? (coded v :: more)).map (.ofNat u.value :: ·)
  | coded u :: more =>
      if isLeadingSurrogate u.value ∨ isTrailingSurrogate u.value then none
      else (text? more).map (.ofNat u.value :: ·)

theorem text?_coded {u : CodeUnit} (hleading : ¬isLeadingSurrogate u.value = true)
    (htrailing : ¬isTrailingSurrogate u.value = true) (more : List Glyph) :
    text? (coded u :: more) = (text? more).map (.ofNat u.value :: ·) := by
  have halone : ¬(isLeadingSurrogate u.value = true ∨ isTrailingSurrogate u.value = true) := by
    rintro (h | h)
    · exact hleading h
    · exact htrailing h
  cases more with
  | nil => exact if_neg halone
  | cons next more =>
      cases next with
      | coded v => rw [text?, if_neg hleading, if_neg htrailing]
      | plain | short => exact if_neg halone

/-- A character as it stands, or its code where it may not stand. -/
def ofChar (c : Char) : Glyph :=
  if hc : ¬c < ' ' ∧ c ≠ '"' ∧ c ≠ '\\' then plain c hc else coded (.ofNat c.toNat)

theorem text?_ofChar (c : Char) (more : List Glyph) : text? (ofChar c :: more) = (text? more).map (c :: ·) := by
  unfold ofChar
  split
  next => rfl
  next hc =>
    -- What may not stand as it is has a code below all surrogates, so what follows has no say in how it is read.
    have hlow : c.toNat < 0x80 := by
      by_contra hge
      refine hc ⟨fun hlt => hge (Nat.lt_trans hlt (by decide)), ?_, ?_⟩
      · rintro rfl
        exact hge (by decide)
      · rintro rfl
        exact hge (by decide)
    have hvalue : (CodeUnit.ofNat c.toNat).value = c.toNat := CodeUnit.value_ofNat (Nat.lt_trans hlow (by decide))
    have hleading : ¬isLeadingSurrogate c.toNat = true := by
      unfold isLeadingSurrogate
      simp only [Bool.and_eq_true, decide_eq_true_iff]
      omega
    have htrailing : ¬isTrailingSurrogate c.toNat = true := by
      unfold isTrailingSurrogate
      simp only [Bool.and_eq_true, decide_eq_true_iff]
      omega
    rw [← hvalue] at hleading htrailing
    rw [text?_coded hleading htrailing, hvalue, Char.ofNat_toNat]

end Glyph

structure Spelling where
  glyphs : List Glyph

namespace Spelling

def chars (s : Spelling) : List Char := '"' :: (s.glyphs.flatMap Glyph.chars ++ ['"'])

def text? (s : Spelling) : Option String := (Glyph.text? s.glyphs).map .ofList

def ofText (text : String) : Spelling := ⟨text.toList.map Glyph.ofChar⟩

theorem text?_ofText (text : String) : (ofText text).text? = some text := by
  have hglyphs : ∀ cs : List Char, Glyph.text? (cs.map Glyph.ofChar) = some cs := by
    intro cs
    induction cs with
    | nil => rfl
    | cons c more ih =>
        rw [List.map_cons, Glyph.text?_ofChar, ih]
        rfl
  rw [text?, ofText, hglyphs]
  exact congrArg some String.ofList_toList

end Spelling

/-! ### Numbers -/

structure Digits where
  chars : List Char
  areDigits : ∀ c ∈ chars, Decimal.isDigit c = true
  nonempty : chars ≠ []

inductive Sign where
  | plus
  | minus
  deriving DecidableEq

def Sign.char : Sign → Char
  | plus => '+'
  | minus => '-'

structure Exponent where
  isCapital : Bool
  sign : Option Sign
  digits : Digits

def Exponent.chars (e : Exponent) : List Char :=
  (if e.isCapital then 'E' else 'e') :: (e.sign.toList.map Sign.char ++ e.digits.chars)

def Exponent.power (e : Exponent) : Int :=
  match e.sign with
  | some .minus => -(Decimal.value 0 e.digits.chars : Int)
  | some .plus | none => Decimal.value 0 e.digits.chars

structure Numeral where
  isNegative : Bool
  whole : List Char
  isWhole : IsWhole whole
  fraction : Option Digits
  exponent : Option Exponent

namespace Numeral

def ofNat (n : Nat) : Numeral := ⟨false, Decimal.digits n, isWhole_digits n, none, none⟩

def fractionChars (n : Numeral) : List Char := (n.fraction.map ('.' :: ·.chars)).getD []

def exponentChars (n : Numeral) : List Char := (n.exponent.map Exponent.chars).getD []

def unsignedChars (n : Numeral) : List Char := n.whole ++ (n.fractionChars ++ n.exponentChars)

def chars (n : Numeral) : List Char := (if n.isNegative then ['-'] else []) ++ n.unsignedChars

end Numeral

/-! ### Values -/

inductive Word where
  | null
  | true
  | false
  deriving DecidableEq

def Word.chars : Word → List Char
  | null => "null".toList
  | true => "true".toList
  | false => "false".toList

/-- What a node of a text may be. -/
inductive Role where
  | value
  | items
  | members

/-- A value, or what stands in a list or an object that is not empty. White space belongs to the list or object around
it. -/
inductive Tree : Role → Type where
  | word (w : Word) : Tree .value
  | number (n : Numeral) : Tree .value
  | text (s : Spelling) : Tree .value
  | emptyList (inner : Blanks) : Tree .value
  | list (items : Tree .items) : Tree .value
  | emptyObject (inner : Blanks) : Tree .value
  | object (members : Tree .members) : Tree .value
  | lastItem (before : Blanks) (v : Tree .value) (after : Blanks) : Tree .items
  | item (before : Blanks) (v : Tree .value) (after : Blanks) (more : Tree .items) : Tree .items
  | lastMember (beforeKey : Blanks) (key : Spelling) (afterKey before : Blanks) (v : Tree .value) (after : Blanks) :
      Tree .members
  | member (beforeKey : Blanks) (key : Spelling) (afterKey before : Blanks) (v : Tree .value) (after : Blanks)
      (more : Tree .members) : Tree .members

abbrev Value : Type := Tree .value

def Tree.chars : {role : Role} → Tree role → List Char
  | _, word w => w.chars
  | _, number n => n.chars
  | _, text s => s.chars
  | _, emptyList inner => '[' :: (inner.chars ++ [']'])
  | _, list items => '[' :: (items.chars ++ [']'])
  | _, emptyObject inner => '{' :: (inner.chars ++ ['}'])
  | _, object members => '{' :: (members.chars ++ ['}'])
  | _, lastItem before v after => before.chars ++ (v.chars ++ after.chars)
  | _, item before v after more => before.chars ++ (v.chars ++ (after.chars ++ ',' :: more.chars))
  | _, lastMember beforeKey key afterKey before v after =>
      beforeKey.chars ++ (key.chars ++ (afterKey.chars ++ ':' :: (before.chars ++ (v.chars ++ after.chars))))
  | _, member beforeKey key afterKey before v after more =>
      beforeKey.chars ++ (key.chars ++ (afterKey.chars ++ ':' ::
        (before.chars ++ (v.chars ++ (after.chars ++ ',' :: more.chars)))))

namespace Value

def null : Value := .word .null

def isNull : Value → Bool
  | .word .null => true
  | _ => false

def text? : Value → Option String
  | .text s => s.text?
  | _ => none

theorem eq_null {v : Value} (h : v.isNull = true) : v = .null := by
  cases v with
  | word w =>
      cases w with
      | null => rfl
      | _ => cases h
  | _ => cases h

def numeral? : Value → Option Numeral
  | .number n => some n
  | _ => none

theorem eq_number {v : Value} {n : Numeral} (h : v.numeral? = some n) : v = .number n := by
  cases v with
  | number => exact congrArg Tree.number (Option.some.inj h)
  | _ => cases h

end Value

/-! ### Objects as whole texts -/

structure Entry where
  beforeKey : Blanks
  key : Spelling
  name : String
  spellsName : key.text? = some name
  afterKey : Blanks
  before : Blanks
  value : Value
  after : Blanks

def Entry.named (name : String) (value : Value) : Entry where
  beforeKey := .none
  key := .ofText name
  name := name
  spellsName := Spelling.text?_ofText name
  afterKey := .none
  before := .none
  value := value
  after := .none

def Entry.chars (e : Entry) : List Char :=
  e.beforeKey.chars ++
    (e.key.chars ++ (e.afterKey.chars ++ ':' :: (e.before.chars ++ (e.value.chars ++ e.after.chars))))

def valuesUnder (name : String) (entries : List Entry) : List Value :=
  (entries.filter (·.name == name)).map (·.value)

structure ObjectText where
  before : Blanks
  inner : Blanks
  entries : List Entry
  after : Blanks

namespace ObjectText

def chars (o : ObjectText) : List Char :=
  o.before.chars ++ '{' :: (o.inner.chars ++
    (List.intercalate [','] (o.entries.map Entry.chars) ++ '}' :: o.after.chars))

def text (o : ObjectText) : String := .ofList o.chars

def bytes (o : ObjectText) : Bytes := Utf8.encode o.chars

def under (o : ObjectText) (name : String) : List Value := valuesUnder name o.entries

def texts (o : ObjectText) (name : String) : List String := (o.under name).filterMap Value.text?

def numerals (o : ObjectText) (name : String) : List Numeral := (o.under name).filterMap Value.numeral?

end ObjectText

end LeaderLease.Json
