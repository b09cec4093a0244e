-- JSON values, as `json.dumps` of Python writes them and `json.loads` reads them.
-- A value that is written and read again is the same value, and so is a record
-- that goes through its codec. Nothing here is about one program.
import OidcGatekeeper.JsonStrings
import Mathlib.Data.List.Nodup

open json_strings

namespace json

/-- An `int` that Python turns into text and back: it has at most 4300 digits. -/
structure Integer where
  val : Int
  short : (Nat.toDigits 10 val.natAbs).length ≤ 4300
  deriving DecidableEq

/-- A JSON value. A number that is no integer stays the text that it was read from. -/
inductive Value
  | null
  | bool (b : Bool)
  | int (n : Integer)
  | float (text : String)
  | str (s : Str)
  | arr (items : List Value)
  | obj (members : List (Str × Value))

/-! ## The writer -/

/-- A surrogate is written as an escape. -/
def escapePoint (p : Nat) : List Char :=
  if p.isValidChar then escape (Char.ofNat p) else '\\' :: 'u' :: hex4 p

def writeStr : Str → List Char
  | .text s => quote s
  | .points ps _ => '"' :: ps.flatMap escapePoint ++ ['"']

def writeInt (n : Int) : List Char :=
  if n < 0 then '-' :: Nat.toDigits 10 n.natAbs else Nat.toDigits 10 n.natAbs

mutual

def write : Value → List Char
  | .null => "null".toList
  | .bool true => "true".toList
  | .bool false => "false".toList
  | .int n => writeInt n.val
  | .float text => text.toList
  | .str s => writeStr s
  | .arr [] => ['[', ']']
  | .arr (x :: xs) => '[' :: write x ++ writeItems xs
  | .obj [] => ['{', '}']
  | .obj ((k, v) :: ms) => '{' :: writeStr k ++ ':' :: ' ' :: write v ++ writeMembers ms

/-- The items of a list after the first, each with its separator. -/
def writeItems : List Value → List Char
  | [] => [']']
  | x :: xs => ',' :: ' ' :: write x ++ writeItems xs

/-- The members of an object after the first, each with its separator. -/
def writeMembers : List (Str × Value) → List Char
  | [] => ['}']
  | (k, v) :: ms => ',' :: ' ' :: writeStr k ++ ':' :: ' ' :: write v ++ writeMembers ms

end

/-- `json.dumps` with its default separators. -/
def dumps (v : Value) : String := String.ofList (write v)

/-! ## The reader -/

/-- What `json.loads` raises: a `JSONDecodeError` for a text that is no JSON, and another
`ValueError` for an integer with too many digits. -/
inductive LoadsError
  | jsonDecodeError | valueError
  deriving DecidableEq

/-- A text that cannot be read is no JSON. -/
def decoded {α : Type} : Option α → Except LoadsError α
  | some a => .ok a
  | none => .error .jsonDecodeError

/-- The words that are values. Python also reads three that are not JSON. -/
def keywords : List (List Char × Value) :=
  [("null".toList, .null), ("true".toList, .bool true), ("false".toList, .bool false),
    ("NaN".toList, .float "NaN"), ("Infinity".toList, .float "Infinity"),
    ("-Infinity".toList, .float "-Infinity")]

def readKeyword (cs : List Char) : Option (Value × List Char) :=
  keywords.findSome? fun kw => if kw.1 <+: cs then some (kw.2, cs.drop kw.1.length) else none

/-- The digits of an integer: a zero has no digit after it. -/
def readDigits : List Char → List Char × List Char
  | '0' :: rest => (['0'], rest)
  | cs => (cs.takeWhile Char.isDigit, cs.dropWhile Char.isDigit)

/-- A point with digits after it, if there is one. -/
def readFraction : List Char → List Char × List Char
  | '.' :: rest =>
    if rest.takeWhile Char.isDigit = [] then ([], '.' :: rest)
    else ('.' :: rest.takeWhile Char.isDigit, rest.dropWhile Char.isDigit)
  | cs => ([], cs)

def readSign : List Char → List Char × List Char
  | '+' :: rest => (['+'], rest)
  | '-' :: rest => (['-'], rest)
  | cs => ([], cs)

/-- An exponent, if there is one. -/
def readExponent : List Char → List Char × List Char
  | [] => ([], [])
  | c :: rest =>
    let (sign, rest₁) := readSign rest
    if (c = 'e' ∨ c = 'E') ∧ rest₁.takeWhile Char.isDigit ≠ [] then
      (c :: sign ++ rest₁.takeWhile Char.isDigit, rest₁.dropWhile Char.isDigit)
    else ([], c :: rest)

def readMinus : List Char → List Char × List Char
  | '-' :: rest => (['-'], rest)
  | cs => ([], cs)

/-- `int(text)`. -/
def toInteger (n : Int) : Except LoadsError Integer :=
  if h : (Nat.toDigits 10 n.natAbs).length ≤ 4300 then .ok ⟨n, h⟩ else .error .valueError

def readNumber (cs : List Char) : Except LoadsError (Value × List Char) :=
  let (sign, rest) := readMinus cs
  let (digits, rest) := readDigits rest
  let (fraction, rest) := readFraction rest
  let (exponent, rest) := readExponent rest
  if digits = [] then .error .jsonDecodeError
  else if fraction = [] ∧ exponent = [] then
    let n : Int := Nat.ofDigitChars 10 digits 0
    (toInteger (if sign = [] then n else -n)).map fun n => (.int n, rest)
  else .ok (.float (String.ofList (sign ++ digits ++ fraction ++ exponent)), rest)

/-- `d[k] = v`: a key that is there keeps its place. -/
def setItem (ms : List (Str × Value)) (m : Str × Value) : List (Str × Value) :=
  if m.1 ∈ ms.map Prod.fst then ms.map fun x => if x.1 = m.1 then m else x else ms ++ [m]

/-- The dict of the members of an object. Of two members with one key the last one counts. -/
def toDict (ms : List (Str × Value)) : List (Str × Value) := ms.foldl setItem []

/-- A key and the colon after it. -/
def readKey (cs : List Char) : Option (Str × List Char) := do
  let (k, rest) ← readString cs
  match skipSpace rest with
  | ':' :: rest => return (k, rest)
  | _ => none

mutual

/-- One value at the head of a text. Each turn takes one character at least, so as many
turns as the text has characters are enough. -/
def readValue : Nat → List Char → Except LoadsError (Value × List Char)
  | 0, _ => .error .jsonDecodeError
  | fuel + 1, cs =>
    match skipSpace cs with
    | '"' :: _ => (decoded (readString cs)).map fun p => (.str p.1, p.2)
    | '[' :: rest =>
      match skipSpace rest with
      | ']' :: rest => .ok (.arr [], rest)
      | _ => do
        let (x, rest) ← readValue fuel rest
        let (xs, rest) ← readItems fuel rest
        return (.arr (x :: xs), rest)
    | '{' :: rest =>
      match skipSpace rest with
      | '}' :: rest => .ok (.obj [], rest)
      | _ => do
        let (k, rest) ← decoded (readKey rest)
        let (v, rest) ← readValue fuel rest
        let (ms, rest) ← readMembers fuel rest
        return (.obj (toDict ((k, v) :: ms)), rest)
    | rest =>
      match readKeyword rest with
      | some p => .ok p
      | none => readNumber rest

/-- What follows an item: a comma and more items, or the end. -/
def readItems : Nat → List Char → Except LoadsError (List Value × List Char)
  | 0, _ => .error .jsonDecodeError
  | fuel + 1, cs =>
    match skipSpace cs with
    | ',' :: rest => do
      let (x, rest) ← readValue fuel rest
      let (xs, rest) ← readItems fuel rest
      return (x :: xs, rest)
    | ']' :: rest => .ok ([], rest)
    | _ => .error .jsonDecodeError

/-- What follows a member: a comma and more members, or the end. -/
def readMembers : Nat → List Char → Except LoadsError (List (Str × Value) × List Char)
  | 0, _ => .error .jsonDecodeError
  | fuel + 1, cs =>
    match skipSpace cs with
    | ',' :: rest => do
      let (k, rest) ← decoded (readKey rest)
      let (v, rest) ← readValue fuel rest
      let (ms, rest) ← readMembers fuel rest
      return ((k, v) :: ms, rest)
    | '}' :: rest => .ok ([], rest)
    | _ => .error .jsonDecodeError

end

/-- `json.loads`. -/
def loads (text : String) : Except LoadsError Value := do
  let (v, rest) ← readValue text.toList.length text.toList
  if skipSpace rest = [] then return v else throw .jsonDecodeError

/-- What a `for` loop over the value goes through. -/
def Value.items : Value → Option (List Value)
  | .arr items => some items
  | .str s => some (s.toPoints.map fun p => .str (.ofPoints [p]))
  | .obj members => some (members.map fun m => .str m.1)
  | _ => none

/-! ## Values that are read as they were written -/

mutual

/-- No number but integers, no surrogate, and no key twice in an object. -/
def Value.Exact : Value → Prop
  | .float _ => False
  | .str (.points _ _) => False
  | .arr xs => ItemsExact xs
  | .obj ms => (ms.map Prod.fst).Nodup ∧ MembersExact ms
  | _ => True

def ItemsExact : List Value → Prop
  | [] => True
  | x :: xs => x.Exact ∧ ItemsExact xs

def MembersExact : List (Str × Value) → Prop
  | [] => True
  | (.text _, v) :: ms => v.Exact ∧ MembersExact ms
  | (.points _ _, _) :: _ => False

end

mutual

def decExact : (v : Value) → Decidable v.Exact
  | .null | .bool _ | .int _ | .str (.text _) => .isTrue trivial
  | .float _ | .str (.points _ _) => .isFalse id
  | .arr xs => decItemsExact xs
  | .obj ms => @instDecidableAnd _ _ inferInstance (decMembersExact ms)

def decItemsExact : (xs : List Value) → Decidable (ItemsExact xs)
  | [] => .isTrue trivial
  | x :: xs => @instDecidableAnd _ _ (decExact x) (decItemsExact xs)

def decMembersExact : (ms : List (Str × Value)) → Decidable (MembersExact ms)
  | [] => .isTrue trivial
  | (.text _, v) :: ms => @instDecidableAnd _ _ (decExact v) (decMembersExact ms)
  | (.points _ _, _) :: _ => .isFalse id

end

instance (v : Value) : Decidable v.Exact := decExact v

/-! ## Reading an integer -/

/-- A text that cannot go on a number: it is at its end, or at a separator. -/
def Ends (rest : List Char) : Prop := ∀ c ∈ rest.head?, c ∈ [',', ']', '}']

theorem ends_nil : Ends [] := by simp [Ends]

theorem ends_cons {c : Char} {rest : List Char} (h : c ∈ [',', ']', '}']) : Ends (c :: rest) := by
  simpa [Ends] using h

theorem takeWhile_digits {ds rest : List Char} (hd : ∀ c ∈ ds, c.isDigit) (hr : Ends rest) :
    (ds ++ rest).takeWhile Char.isDigit = ds ∧ (ds ++ rest).dropWhile Char.isDigit = rest := by
  have hrest : rest.takeWhile Char.isDigit = [] ∧ rest.dropWhile Char.isDigit = rest := by
    cases rest with
    | nil => simp
    | cons c cs =>
      have hc : c.isDigit = false := by
        have hmem := hr c rfl
        simp only [List.mem_cons, List.not_mem_nil, or_false] at hmem
        rcases hmem with rfl | rfl | rfl <;> decide
      simp [hc]
  rw [List.takeWhile_append_of_pos hd, List.dropWhile_append_of_pos hd, hrest.1, hrest.2]
  simp

theorem isDigit_of_mem_toDigits {n : Nat} {c : Char} (h : c ∈ Nat.toDigits 10 n) : c.isDigit :=
  Nat.isDigit_of_mem_toDigits (by decide) (by decide) h

/-- A positive number starts with another digit than zero. -/
theorem toDigits_head {n : Nat} (h : n ≠ 0) : ∃ c cs, Nat.toDigits 10 n = c :: cs ∧ c ≠ '0' := by
  induction n using Nat.strongRecOn with
  | ind n ih =>
    by_cases hn : n < 10
    · refine ⟨n.digitChar, [], Nat.toDigits_of_lt_base hn, ?_⟩
      simpa using h
    · obtain ⟨c, cs, hc, h0⟩ := ih (n / 10) (by omega) (by omega)
      refine ⟨c, cs ++ [(n % 10).digitChar], ?_, h0⟩
      rw [Nat.toDigits_of_base_le (by decide) (by omega), hc, List.cons_append]

theorem readDigits_toDigits (n : Nat) {rest : List Char} (h : Ends rest) :
    readDigits (Nat.toDigits 10 n ++ rest) = (Nat.toDigits 10 n, rest) := by
  by_cases h0 : n = 0
  · subst h0
    simp [readDigits]
  · obtain ⟨c, cs, hc, hne⟩ := toDigits_head h0
    have hd := takeWhile_digits (fun d => isDigit_of_mem_toDigits (n := n)) h
    rw [hc] at hd ⊢
    rw [List.cons_append, readDigits]
    · rw [← List.cons_append, hd.1, hd.2]
    · rintro r ⟨⟩
      exact hne rfl

theorem readFraction_ends {rest : List Char} (h : Ends rest) : readFraction rest = ([], rest) := by
  unfold readFraction
  split
  · exact absurd (h '.' rfl) (by decide)
  · rfl

theorem readExponent_ends {rest : List Char} (h : Ends rest) : readExponent rest = ([], rest) := by
  cases rest with
  | nil => rfl
  | cons c cs =>
    have hc : ¬ (c = 'e' ∨ c = 'E') := by
      rintro (rfl | rfl) <;> exact absurd (h _ rfl) (by decide)
    simp [readExponent, hc]

theorem readMinus_writeInt (n : Int) (rest : List Char) :
    readMinus (writeInt n ++ rest) =
      (if n < 0 then ['-'] else [], Nat.toDigits 10 n.natAbs ++ rest) := by
  unfold writeInt
  by_cases hn : n < 0
  · simp [hn, readMinus]
  · rw [if_neg hn, if_neg hn]
    unfold readMinus
    split
    · rename_i r hr
      have hmem : '-' ∈ Nat.toDigits 10 n.natAbs := by
        cases hds : Nat.toDigits 10 n.natAbs with
        | nil => exact absurd hds Nat.toDigits_ne_nil
        | cons c cs =>
          rw [hds, List.cons_append, List.cons.injEq] at hr
          simp [hr.1]
      exact absurd (isDigit_of_mem_toDigits hmem) (by decide)
    · rfl

theorem writeInt_injective {m n : Int} (h : writeInt m = writeInt n) : m = n := by
  have hm := readMinus_writeInt m []
  rw [h, readMinus_writeInt n [], List.append_nil, List.append_nil] at hm
  obtain ⟨hsign, hdigits⟩ := Prod.mk.inj hm
  have habs : n.natAbs = m.natAbs := by
    rw [← Nat.ofDigitChars_ten_toDigits (n := n.natAbs), hdigits, Nat.ofDigitChars_ten_toDigits]
  by_cases hm : m < 0 <;> by_cases hn : n < 0 <;> simp [hm, hn] at hsign
  · omega
  · omega

theorem readNumber_writeInt (n : Integer) {rest : List Char} (h : Ends rest) :
    readNumber (writeInt n.val ++ rest) = .ok (.int n, rest) := by
  have hne : Nat.toDigits 10 n.val.natAbs ≠ [] := Nat.toDigits_ne_nil
  have hint : toInteger n.val = .ok n := dif_pos n.short
  unfold readNumber
  simp only [readMinus_writeInt, readDigits_toDigits n.val.natAbs h, readFraction_ends h,
    readExponent_ends h, hne, and_self, if_true, if_false, Nat.ofDigitChars_ten_toDigits]
  by_cases hn : n.val < 0
  · have habs : -(n.val.natAbs : Int) = n.val := by omega
    simp only [hn, if_true, List.cons_ne_nil, if_false, habs, hint]
    rfl
  · have habs : (n.val.natAbs : Int) = n.val := by omega
    simp only [hn, if_false, if_true, habs, hint]
    rfl

/-! ## The round trip -/

theorem foldl_setItem (acc ms : List (Str × Value))
    (h : ((acc ++ ms).map Prod.fst).Nodup) : ms.foldl setItem acc = acc ++ ms := by
  induction ms generalizing acc with
  | nil => simp
  | cons m ms ih =>
    have hm : m.1 ∉ acc.map Prod.fst := by
      rw [List.map_append, List.nodup_append] at h
      exact fun hmem => h.2.2 _ hmem _ (by simp) rfl
    rw [List.foldl_cons, setItem, if_neg hm, ih _ (by simpa using h)]
    simp

/-- Members with distinct keys are a dict as they are. -/
theorem toDict_of_nodup {ms : List (Str × Value)} (h : (ms.map Prod.fst).Nodup) :
    toDict ms = ms := by
  simpa [toDict] using foldl_setItem [] ms (by simpa using h)

@[simp] theorem skipSpace_space (cs : List Char) : skipSpace (' ' :: cs) = skipSpace cs := by
  simp [skipSpace]

theorem readString_space (cs : List Char) : readString (' ' :: cs) = readString cs := by
  simp [readString]

theorem readKey_quote (k : String) (rest : List Char) :
    readKey (quote k ++ ':' :: rest) = some (.text k, rest) := by
  simp [readKey, (readString_quote k _).1, skipSpace]

theorem readKey_space (cs : List Char) : readKey (' ' :: cs) = readKey cs := by
  simp [readKey, readString_space]

theorem readValue_space (n : Nat) (cs : List Char) :
    readValue n (' ' :: cs) = readValue n cs := by
  cases n with
  | zero => simp [readValue]
  | succ n => rw [readValue, readValue, skipSpace_space, readString_space]

/-- A text that starts with none of the three opening characters is a word or a number. -/
theorem readValue_plain {n : Nat} {c : Char} {cs : List Char} (hs : c ∉ [' ', '\t', '\n', '\r'])
    (ho : c ∉ ['"', '[', '{']) :
    readValue (n + 1) (c :: cs) =
      match readKeyword (c :: cs) with
      | some p => .ok p
      | none => readNumber (c :: cs) := by
  have hskip : skipSpace (c :: cs) = c :: cs := by
    unfold skipSpace
    rw [List.dropWhile_cons_of_neg (by simpa using hs)]
  simp only [List.mem_cons, List.not_mem_nil, or_false, not_or] at ho
  rw [readValue, hskip]
  split
  · rename_i h
    exact absurd (List.cons.inj h).1 ho.1
  · rename_i h
    exact absurd (List.cons.inj h).1 ho.2.1
  · rename_i h
    exact absurd (List.cons.inj h).1 ho.2.2
  · rfl

/-- No value starts with a closing bracket. -/
theorem readValue_bracket {n : Nat} {cs rest : List Char} (h : skipSpace cs = ']' :: rest) :
    readValue n cs = .error .jsonDecodeError := by
  cases n with
  | zero => rfl
  | succ n =>
    rw [readValue, h]
    simp [readKeyword, keywords, readNumber, readMinus, readDigits]

/-- An integer starts with a digit, or with a minus and a digit. -/
theorem writeInt_head (n : Int) : ∃ c cs, c.isDigit ∧
    (writeInt n = c :: cs ∨ writeInt n = '-' :: c :: cs) := by
  cases hds : Nat.toDigits 10 n.natAbs with
  | nil => exact absurd hds Nat.toDigits_ne_nil
  | cons c cs =>
    refine ⟨c, cs, isDigit_of_mem_toDigits (hds ▸ List.mem_cons_self), ?_⟩
    unfold writeInt
    rw [hds]
    split
    · exact .inr rfl
    · exact .inl rfl

theorem readKeyword_none {cs : List Char} (h : ∀ kw ∈ keywords, ¬ kw.1 <+: cs) :
    readKeyword cs = none := by
  rw [readKeyword, List.findSome?_eq_none_iff]
  intro kw hkw
  rw [if_neg (h kw hkw)]

theorem readValue_writeInt (k : Nat) (n : Integer) {rest : List Char} (h : Ends rest) :
    readValue (k + 1) (writeInt n.val ++ rest) = .ok (.int n, rest) := by
  have hnum := readNumber_writeInt n h
  obtain ⟨c, cs, hd, hw⟩ := writeInt_head n.val
  have hne : ∀ d : Char, d.isDigit = false → d ≠ c := by
    rintro d hf rfl
    exact absurd hd (by simp [hf])
  have hplain : ∀ ds : List Char, (∀ d ∈ ds, d.isDigit = false) → c ∉ ds :=
    fun ds hds hmem => hne c (hds c hmem) rfl
  rcases hw with hw | hw <;> rw [hw] at hnum ⊢ <;> rw [List.cons_append] at hnum ⊢
  · have hs : c ∉ [' ', '\t', '\n', '\r'] := hplain _ (by simp [Char.isDigit])
    have ho : c ∉ ['"', '[', '{'] := hplain _ (by simp [Char.isDigit])
    have hk : readKeyword (c :: (cs ++ rest)) = none := readKeyword_none (by simp [keywords, hne])
    rw [readValue_plain hs ho, hk]
    exact hnum
  · have hk : readKeyword ('-' :: (c :: cs ++ rest)) = none :=
      readKeyword_none (by simp [keywords, hne])
    rw [readValue_plain (by simp) (by simp), hk]
    exact hnum

theorem ends_writeItems (xs : List Value) (rest : List Char) : Ends (writeItems xs ++ rest) := by
  cases xs <;> exact ends_cons (by simp)

theorem ends_writeMembers (ms : List (Str × Value)) (rest : List Char) :
    Ends (writeMembers ms ++ rest) := by
  cases ms <;> exact ends_cons (by simp)

section parts

variable {n : Nat} {cs rest rest' : List Char} {k : String} {v : Value} {xs : List Value}
  {ms : List (Str × Value)}

theorem readValue_arr (hv : readValue n cs = .ok (v, rest))
    (hxs : readItems n rest = .ok (xs, rest')) :
    readValue (n + 1) ('[' :: cs) = .ok (.arr (v :: xs), rest') := by
  have hskip : skipSpace ('[' :: cs) = '[' :: cs := by simp [skipSpace]
  rw [readValue, hskip]
  split
  · rename_i h
    simp at h
  · rename_i h
    cases h
    split
    · rename_i r hr
      rw [readValue_bracket hr] at hv
      cases hv
    · simp only [hv, hxs, bind, Except.bind]
      rfl
  · rename_i h
    simp at h
  · rename_i h _
    exact (h _ rfl).elim

theorem readItems_cons (hv : readValue n cs = .ok (v, rest))
    (hxs : readItems n rest = .ok (xs, rest')) :
    readItems (n + 1) (',' :: ' ' :: cs) = .ok (v :: xs, rest') := by
  have hskip : skipSpace (',' :: ' ' :: cs) = ',' :: ' ' :: cs := by simp [skipSpace]
  rw [readItems, hskip]
  simp only [readValue_space, hv, hxs, bind, Except.bind]
  rfl

theorem readValue_obj (hv : readValue n cs = .ok (v, rest))
    (hms : readMembers n rest = .ok (ms, rest')) :
    readValue (n + 1) ('{' :: (quote k ++ ':' :: ' ' :: cs)) =
      .ok (.obj (toDict ((.text k, v) :: ms)), rest') := by
  have hskip : skipSpace ('{' :: (quote k ++ ':' :: ' ' :: cs)) =
      '{' :: (quote k ++ ':' :: ' ' :: cs) := by simp [skipSpace]
  rw [readValue, hskip]
  split
  · rename_i h
    simp at h
  · rename_i h
    simp at h
  · rename_i h
    cases h
    split
    · rename_i r hr
      simp [skipSpace, quote] at hr
    · simp only [readKey_quote, decoded, readValue_space, hv, hms, bind, Except.bind]
      rfl
  · rename_i h
    exact (h _ rfl).elim

theorem readMembers_cons (hv : readValue n cs = .ok (v, rest))
    (hms : readMembers n rest = .ok (ms, rest')) :
    readMembers (n + 1) (',' :: ' ' :: (quote k ++ ':' :: ' ' :: cs)) =
      .ok ((.text k, v) :: ms, rest') := by
  have hskip : skipSpace (',' :: ' ' :: (quote k ++ ':' :: ' ' :: cs)) =
      ',' :: ' ' :: (quote k ++ ':' :: ' ' :: cs) := by simp [skipSpace]
  rw [readMembers, hskip]
  simp only [readKey_space, readKey_quote, decoded, readValue_space, hv, hms, bind, Except.bind]
  rfl

end parts

mutual

/-- What `write` writes for a value, `readValue` reads as that value. -/
theorem readValue_write : ∀ v : Value, v.Exact → ∀ (n : Nat) {rest : List Char}, Ends rest →
    (write v).length ≤ n → readValue n (write v ++ rest) = .ok (v, rest)
  | .null, _, n + 1, rest, _, _ => by
    rw [write]
    exact readValue_plain (by decide) (by decide)
  | .bool true, _, n + 1, rest, _, _ => by
    rw [write]
    exact readValue_plain (by decide) (by decide)
  | .bool false, _, n + 1, rest, _, _ => by
    rw [write]
    exact readValue_plain (by decide) (by decide)
  | .int i, _, n + 1, rest, hr, _ => by
    rw [write]
    exact readValue_writeInt n i hr
  | .str (.text s), _, n + 1, rest, _, _ => by
    have hs := (readString_quote s rest).1
    have hskip : skipSpace (quote s ++ rest) = '"' :: (s.toList.flatMap escape ++ '"' :: rest) := by
      simp [skipSpace, quote]
    rw [write, writeStr, readValue, hskip]
    simp only [hs, decoded]
    rfl
  | .arr [], _, n + 1, rest, _, _ => by
    simp [write, readValue, skipSpace]
  | .arr (x :: xs), hv, n + 1, rest, _, hn => by
    simp only [write, List.length_cons, List.cons_append, List.length_append] at hn
    have hx := readValue_write x hv.1 n (ends_writeItems xs rest) (by omega)
    have hxs := readItems_write xs hv.2 n rest (by omega)
    simpa [write] using readValue_arr hx hxs
  | .obj [], _, n + 1, rest, _, _ => by
    simp [write, readValue, skipSpace]
  | .obj ((.text k, v) :: ms), hv, n + 1, rest, _, hn => by
    simp only [write, List.length_cons, List.cons_append, List.length_append] at hn
    have hm := readValue_write v hv.2.1 n (ends_writeMembers ms rest) (by omega)
    have hms := readMembers_write ms hv.2.2 n rest (by omega)
    have hobj := readValue_obj (k := k) hm hms
    rw [toDict_of_nodup hv.1] at hobj
    simpa [write, writeStr] using hobj
  | .null, _, 0, _, _, hn => by simp [write] at hn
  | .bool true, _, 0, _, _, hn => by simp [write] at hn
  | .bool false, _, 0, _, _, hn => by simp [write] at hn
  | .int i, _, 0, _, _, hn => by
    obtain ⟨c, cs, -, h | h⟩ := writeInt_head i.val <;> simp [write, h] at hn
  | .str (.text s), _, 0, _, _, hn => by simp [write, writeStr, quote] at hn
  | .arr [], _, 0, _, _, hn => by simp [write] at hn
  | .arr (_ :: _), _, 0, _, _, hn => by simp [write] at hn
  | .obj [], _, 0, _, _, hn => by simp [write] at hn
  | .obj (_ :: _), _, 0, _, _, hn => by simp [write] at hn
  | .float _, hv, _, _, _, _ => hv.elim
  | .str (.points _ _), hv, _, _, _, _ => hv.elim
  | .obj ((.points _ _, _) :: _), hv, _ + 1, _, _, _ => hv.2.elim

theorem readItems_write : ∀ xs : List Value, ItemsExact xs → ∀ (n : Nat) (rest : List Char),
    (writeItems xs).length ≤ n → readItems n (writeItems xs ++ rest) = .ok (xs, rest)
  | [], _, n + 1, rest, _ => by
    simp [writeItems, readItems, skipSpace]
  | x :: xs, hx, n + 1, rest, hn => by
    simp only [writeItems, List.length_cons, List.cons_append, List.length_append] at hn
    have hv := readValue_write x hx.1 n (ends_writeItems xs rest) (by omega)
    have hxs := readItems_write xs hx.2 n rest (by omega)
    simpa [writeItems] using readItems_cons hv hxs
  | [], _, 0, _, hn => by simp [writeItems] at hn
  | _ :: _, _, 0, _, hn => by simp [writeItems] at hn

theorem readMembers_write : ∀ ms : List (Str × Value), MembersExact ms →
    ∀ (n : Nat) (rest : List Char), (writeMembers ms).length ≤ n →
      readMembers n (writeMembers ms ++ rest) = .ok (ms, rest)
  | [], _, n + 1, rest, _ => by
    simp [writeMembers, readMembers, skipSpace]
  | (.text k, v) :: ms, hm, n + 1, rest, hn => by
    simp only [writeMembers, List.length_cons, List.cons_append, List.length_append] at hn
    have hv := readValue_write v hm.1 n (ends_writeMembers ms rest) (by omega)
    have hms := readMembers_write ms hm.2 n rest (by omega)
    simpa [writeMembers, writeStr] using readMembers_cons (k := k) hv hms
  | [], _, 0, _, hn => by simp [writeMembers] at hn
  | _ :: _, _, 0, _, hn => by simp [writeMembers] at hn
  | (.points _ _, _) :: _, hm, _ + 1, _, _ => hm.elim

end

/-- `json.loads` gives back the value that `json.dumps` wrote. -/
theorem loads_dumps {v : Value} (h : v.Exact) : loads (dumps v) = .ok v := by
  have hv := readValue_write v h (write v).length ends_nil (Nat.le_refl _)
  rw [List.append_nil] at hv
  unfold loads dumps
  rw [String.toList_ofList, hv]
  rfl

/-! ## A string is shorter than its text -/

theorem length_readHex4 {cs rest : List Char} {n : Nat} (h : readHex4 cs = some (n, rest)) :
    rest.length < cs.length := by
  unfold readHex4 at h
  split at h
  · simp only [Option.bind_eq_bind, Option.bind_eq_some_iff] at h
    obtain ⟨w, -, x, -, y, -, z, -, he⟩ := h
    cases he
    simp only [List.length_cons]
    omega
  · cases h

theorem length_readLow {cs rest : List Char} {n : Nat} (h : readLow cs = some (n, rest)) :
    rest.length < cs.length := by
  unfold readLow at h
  split at h
  · rw [Option.bind_eq_bind, Option.bind_eq_some_iff] at h
    obtain ⟨⟨m, rest₁⟩, hm, h⟩ := h
    have hlt := length_readHex4 hm
    dsimp only at h
    split at h
    · rw [← (Prod.mk.inj (Option.some.inj h)).2]
      simp only [List.length_cons]
      omega
    · cases h
  · cases h

theorem length_readUnicode {cs rest : List Char} {n : Nat} (h : readUnicode cs = some (n, rest)) :
    rest.length < cs.length := by
  unfold readUnicode at h
  rw [Option.bind_eq_bind, Option.bind_eq_some_iff] at h
  obtain ⟨⟨n, rest₁⟩, hn, h⟩ := h
  have hlt := length_readHex4 hn
  dsimp only at h
  split at h
  · split at h
    · rename_i m rest₂ hlow
      have hlt₂ := length_readLow hlow
      rw [← (Prod.mk.inj (Option.some.inj h)).2]
      omega
    · rw [← (Prod.mk.inj (Option.some.inj h)).2]
      exact hlt
  · rw [← (Prod.mk.inj (Option.some.inj h)).2]
    exact hlt

theorem length_readChar {cs rest : List Char} {n : Nat} (h : readChar cs = some (n, rest)) :
    rest.length < cs.length := by
  unfold readChar at h
  split at h
  · have hlt := length_readUnicode h
    simp only [List.length_cons]
    omega
  · simp only [Option.map_eq_some_iff] at h
    obtain ⟨l, -, he⟩ := h
    cases he
    simp only [List.length_cons]
    omega
  · cases h
  · split at h
    · cases h
      simp
    · cases h
  · cases h

theorem length_readBody {fuel : Nat} {cs rest : List Char} {body : List Nat}
    (h : readBody fuel cs = some (body, rest)) : body.length + rest.length < cs.length := by
  fun_induction readBody fuel cs generalizing body with
  | case1 _ rest₁ =>
    cases h
    simp
  | case2 => cases h
  | case3 fuel cs _ ih =>
    simp only [Option.bind_eq_bind, Option.bind_eq_some_iff] at h
    obtain ⟨⟨c, rest₁⟩, hc, ⟨body₁, rest₂⟩, hb, he⟩ := h
    cases he
    have hrest : rest₁.length < cs.length := length_readChar hc
    have hbody : body₁.length + rest₂.length < rest₁.length := ih _ hb
    simp only [List.length_cons]
    omega

theorem length_skipSpace (cs : List Char) : (skipSpace cs).length ≤ cs.length :=
  (List.dropWhile_suffix _).length_le

theorem length_ofPoints {ps : List Nat} {s : String} (h : Str.ofPoints ps = .text s) :
    s.length = ps.length := by
  unfold Str.ofPoints at h
  split at h
  · cases h
    rw [String.length_ofList, List.length_map]
  · cases h

theorem length_readString {cs rest : List Char} {s : String}
    (h : readString cs = some (.text s, rest)) : s.length < cs.length := by
  unfold readString at h
  split at h
  · rename_i rest₁ hskip
    obtain ⟨⟨body, rest₂⟩, hb, he⟩ := Option.map_eq_some_iff.mp h
    have hlen := length_ofPoints (Prod.mk.inj he).1
    have hbody := length_readBody hb
    have hle := length_skipSpace cs
    rw [hskip, List.length_cons] at hle
    omega
  · cases h

theorem readKeyword_ne_str {cs rest : List Char} {s : Str} :
    readKeyword cs ≠ some (.str s, rest) := by
  intro h
  obtain ⟨kw, hkw, hif⟩ := List.exists_of_findSome?_eq_some h
  split at hif
  · have hv : kw.2 = .str s := congrArg Prod.fst (Option.some.inj hif)
    simp only [keywords, List.mem_cons, List.not_mem_nil, or_false] at hkw
    rcases hkw with rfl | rfl | rfl | rfl | rfl | rfl <;> cases hv
  · cases hif

theorem readNumber_ne_str {cs rest : List Char} {s : Str} :
    readNumber cs ≠ .ok (.str s, rest) := by
  intro h
  unfold readNumber at h
  dsimp only at h
  split at h
  · cases h
  · split at h
    · cases hn : toInteger _ with
      | error e =>
        rw [hn] at h
        cases h
      | ok n =>
        rw [hn] at h
        cases h
    · cases h

/-- One statement after another returns when both return. -/
theorem bind_ok_iff {α β : Type} {x : Except LoadsError α} {g : α → Except LoadsError β} {b : β} :
    (x >>= g) = .ok b ↔ ∃ a, x = .ok a ∧ g a = .ok b := by
  cases x <;> simp [bind, Except.bind]

/-- A string that is read as a value is read by `readString`. -/
theorem readString_of_readValue {n : Nat} {cs rest : List Char} {s : Str}
    (h : readValue n cs = .ok (.str s, rest)) : ∃ rest, readString cs = some (s, rest) := by
  cases n with
  | zero => cases h
  | succ n =>
    rw [readValue] at h
    split at h
    · cases hs : readString cs with
      | none =>
        rw [hs] at h
        cases h
      | some p =>
        rw [hs] at h
        cases h
        exact ⟨_, rfl⟩
    · split at h
      · cases h
      · obtain ⟨_, -, h⟩ := bind_ok_iff.mp h
        obtain ⟨_, -, h⟩ := bind_ok_iff.mp h
        cases h
    · split at h
      · cases h
      · obtain ⟨_, -, h⟩ := bind_ok_iff.mp h
        obtain ⟨_, -, h⟩ := bind_ok_iff.mp h
        obtain ⟨_, -, h⟩ := bind_ok_iff.mp h
        cases h
    · split at h
      · rename_i hk
        cases h
        exact absurd hk readKeyword_ne_str
      · exact absurd h readNumber_ne_str

/-- No text is the JSON of itself: the text of a string has two quotes more. -/
theorem ne_of_loads_str {text s : String} (h : loads text = .ok (.str (.text s))) : s ≠ text := by
  unfold loads at h
  obtain ⟨⟨v, rest⟩, hv, h⟩ := bind_ok_iff.mp h
  dsimp only at h
  split at h
  · cases h
    rintro rfl
    obtain ⟨rest, hs⟩ := readString_of_readValue hv
    have hlt := length_readString hs
    rw [String.length_toList] at hlt
    exact Nat.lt_irrefl _ hlt
  · cases h

/-- A text that starts as no JSON value does. -/
theorem loads_none {c : Char} {cs : List Char} (hs : c ∉ [' ', '\t', '\n', '\r'])
    (ho : c ∉ ['"', '[', '{']) (hk : readKeyword (c :: cs) = none)
    (hn : readNumber (c :: cs) = .error .jsonDecodeError) :
    loads (String.ofList (c :: cs)) = .error .jsonDecodeError := by
  unfold loads
  rw [String.toList_ofList, List.length_cons, readValue_plain hs ho, hk, hn]
  rfl

theorem loads_http (s : String) : loads ("http://" ++ s) = .error .jsonDecodeError := by
  have hlist : "http://" ++ s = String.ofList ('h' :: ("ttp://".toList ++ s.toList)) := by
    rw [String.ext_iff]
    simp
  rw [hlist]
  apply loads_none
  · simp
  · simp
  · apply readKeyword_none
    simp [keywords]
  · rfl

/-! ## Lists of strings -/

def strings (ss : List String) : Value := .arr (ss.map fun s => .str (.text s))

theorem exact_strings (ss : List String) : (strings ss).Exact := by
  change ItemsExact _
  induction ss with
  | nil => trivial
  | cons s ss ih => exact ⟨trivial, ih⟩

theorem writeItems_strings (ss : List String) :
    writeItems (ss.map fun s => .str (.text s)) = json_strings.dumpsRest ss := by
  induction ss with
  | nil => rfl
  | cons s ss ih => simp [writeItems, json_strings.dumpsRest, write, writeStr, ih]

theorem dumps_strings (ss : List String) : dumps (strings ss) = json_strings.dumps ss := by
  cases ss with
  | nil => rfl
  | cons s ss =>
    unfold strings dumps json_strings.dumps
    rw [List.map_cons, write, write, writeStr, writeItems_strings]

/-- The list that `json.dumps` wrote is read as that list. -/
theorem loads_strings (ss : List String) : loads (json_strings.dumps ss) = .ok (strings ss) := by
  rw [← dumps_strings, loads_dumps (exact_strings ss)]

end json
