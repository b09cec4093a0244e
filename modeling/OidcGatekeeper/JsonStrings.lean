-- JSON strings, as `json.dumps` of Python writes them and `json.loads` reads them.
-- The text is pure ASCII: any other character is written as a `\u` escape, or as
-- two of them. What is read from what was written is what was written. Nothing
-- here is about one program.
import OidcGatekeeper.Separators

namespace json_strings

/-! ## The strings of Python -/

/-- A `str` of Python. Some of its code points may be surrogates, which a text has none of. -/
inductive Str
  | text (s : String)
  | points (ps : List Nat) (h : ¬ ∀ p ∈ ps, p.isValidChar)
  deriving DecidableEq

namespace Str

instance : Coe String Str := ⟨.text⟩

def ofPoints (ps : List Nat) : Str :=
  if h : ∀ p ∈ ps, p.isValidChar then .text (String.ofList (ps.map Char.ofNat)) else .points ps h

def toPoints : Str → List Nat
  | .text s => s.toList.map Char.toNat
  | .points ps _ => ps

/-- `s + t`. -/
def append (s : Str) (t : String) : Str := ofPoints (s.toPoints ++ t.toList.map Char.toNat)

@[simp] theorem ofPoints_toNat (cs : List Char) :
    ofPoints (cs.map Char.toNat) = .text (String.ofList cs) := by
  have hvalid : ∀ p ∈ cs.map Char.toNat, p.isValidChar := by
    intro p hp
    obtain ⟨c, -, rfl⟩ := List.mem_map.mp hp
    exact c.valid
  rw [ofPoints, dif_pos hvalid, List.map_map]
  simp [Function.comp_def]

@[simp] theorem append_text (s t : String) : (text s).append t = text (s ++ t) := by
  rw [append, toPoints, ← List.map_append, ofPoints_toNat, String.ofList_append,
    String.ofList_toList, String.ofList_toList]

end Str

/-! ## The writer -/

/-- The four hex digits of a number below 65536. -/
def hex4 (n : Nat) : List Char :=
  [n / 4096 % 16, n / 256 % 16, n / 16 % 16, n % 16].map Nat.digitChar

/-- The escapes that have a letter of their own. -/
def letters : List (Char × Char) :=
  [('"', '"'), ('\\', '\\'), ('\n', 'n'), ('\r', 'r'), ('\t', 't'), ('\x08', 'b'), ('\x0c', 'f')]

def escape (c : Char) : List Char :=
  match letters.lookup c with
  | some l => ['\\', l]
  | none =>
    if 0x20 ≤ c.toNat ∧ c.toNat < 0x7f then [c]
    else if c.toNat < 0x10000 then '\\' :: 'u' :: hex4 c.toNat
    else
      '\\' :: 'u' :: hex4 (0xd800 + (c.toNat - 0x10000) / 1024) ++
        '\\' :: 'u' :: hex4 (0xdc00 + (c.toNat - 0x10000) % 1024)

def quote (s : String) : List Char := '"' :: s.toList.flatMap escape ++ ['"']

/-- The items of a list after the first, each with its separator. -/
def dumpsRest : List String → List Char
  | [] => [']']
  | s :: ss => ',' :: ' ' :: quote s ++ dumpsRest ss

/-- `json.dumps` of a list of strings. -/
def dumps : List String → String
  | [] => "[]"
  | s :: ss => String.ofList ('[' :: quote s ++ dumpsRest ss)

/-! ## The reader -/

def hexVal (c : Char) : Option Nat :=
  if '0' ≤ c ∧ c ≤ '9' then some (c.toNat - 48)
  else if 'a' ≤ c ∧ c ≤ 'f' then some (c.toNat - 87)
  else if 'A' ≤ c ∧ c ≤ 'F' then some (c.toNat - 55)
  else none

/-- Four hex digits at the head of a text. -/
def readHex4 : List Char → Option (Nat × List Char)
  | a :: b :: c :: d :: rest => do
    let w ← hexVal a
    let x ← hexVal b
    let y ← hexVal c
    let z ← hexVal d
    return (((w * 16 + x) * 16 + y) * 16 + z, rest)
  | _ => none

/-- The letter of an escape, the other way round. JSON also allows `\/`. -/
def unletters : List (Char × Char) := ('/', '/') :: letters.map Prod.swap

/-- The low half of a pair of escapes that make one character. -/
def readLow : List Char → Option (Nat × List Char)
  | '\\' :: 'u' :: rest => do
    let (m, rest) ← readHex4 rest
    if 0xdc00 ≤ m ∧ m < 0xe000 then return (m, rest) else none
  | _ => none

/-- What follows `\u`: one code point, or two that make a character above 65535. A half of
a pair without the other half is read as it is. -/
def readUnicode (cs : List Char) : Option (Nat × List Char) := do
  let (n, rest) ← readHex4 cs
  if 0xd800 ≤ n ∧ n < 0xdc00 then
    match readLow rest with
    | some (m, rest) => return (0x10000 + (n - 0xd800) * 1024 + (m - 0xdc00), rest)
    | none => return (n, rest)
  else
    return (n, rest)

/-- One code point of a string. A bare quote or control character is none. -/
def readChar : List Char → Option (Nat × List Char)
  | '\\' :: 'u' :: rest => readUnicode rest
  | '\\' :: l :: rest => (unletters.lookup l).map fun c => (c.toNat, rest)
  | '"' :: _ => none
  | c :: rest => if 0x20 ≤ c.toNat then some (c.toNat, rest) else none
  | [] => none

/-- The code points up to the closing quote, at most `fuel` of them. -/
def readBody : Nat → List Char → Option (List Nat × List Char)
  | _, '"' :: rest => some ([], rest)
  | 0, _ => none
  | fuel + 1, cs => do
    let (p, rest) ← readChar cs
    let (body, rest) ← readBody fuel rest
    return (p :: body, rest)

def skipSpace (cs : List Char) : List Char := cs.dropWhile (· ∈ [' ', '\t', '\n', '\r'])

def readString (cs : List Char) : Option (Str × List Char) :=
  match skipSpace cs with
  | '"' :: rest => (readBody rest.length rest).map fun (body, rest) => (.ofPoints body, rest)
  | _ => none

/-! ## The round trip -/

theorem hexVal_digitChar : ∀ n < 16, hexVal (Nat.digitChar n) = some n := by decide

theorem readHex4_hex4 {n : Nat} (h : n < 0x10000) (rest : List Char) :
    readHex4 (hex4 n ++ rest) = some (n, rest) := by
  have hd : ∀ m : Nat, hexVal (Nat.digitChar (m % 16)) = some (m % 16) :=
    fun m => hexVal_digitChar _ (Nat.mod_lt m (by omega))
  simp only [hex4, List.map_cons, List.map_nil, List.cons_append, List.nil_append, readHex4, hd,
    Option.bind_eq_bind, Option.bind_some, Option.pure_def, Option.some.injEq, Prod.mk.injEq,
    and_true]
  omega

theorem toNat_lt_scalar (c : Char) :
    c.toNat < 0xd800 ∨ (0xdfff < c.toNat ∧ c.toNat < 0x110000) := by
  have h := c.valid
  simp only [UInt32.isValidChar, Nat.isValidChar] at h
  exact h

theorem readUnicode_small {c : Char} (h : c.toNat < 0x10000) (rest : List Char) :
    readUnicode (hex4 c.toNat ++ rest) = some (c.toNat, rest) := by
  have hs : ¬ (0xd800 ≤ c.toNat ∧ c.toNat < 0xdc00) := by
    have := toNat_lt_scalar c
    omega
  simp [readUnicode, readHex4_hex4 h, hs]

/-- Two escapes that make one character above 65535. -/
theorem readUnicode_pair (hi lo : Nat) (h1 : hi < 0x400) (h2 : lo < 0x400) (rest : List Char) :
    readUnicode (hex4 (0xd800 + hi) ++ '\\' :: 'u' :: (hex4 (0xdc00 + lo) ++ rest)) =
      some (0x10000 + hi * 1024 + lo, rest) := by
  have hhi : 0xd800 ≤ 0xd800 + hi ∧ 0xd800 + hi < 0xdc00 := by omega
  have hlo : 0xdc00 ≤ 0xdc00 + lo ∧ 0xdc00 + lo < 0xe000 := by omega
  have hlow : readLow ('\\' :: 'u' :: (hex4 (0xdc00 + lo) ++ rest)) =
      some (0xdc00 + lo, rest) := by
    simp only [readLow, readHex4_hex4 (show 0xdc00 + lo < 0x10000 by omega),
      Option.bind_eq_bind, Option.bind_some, if_pos hlo, Option.pure_def]
  unfold readUnicode
  rw [readHex4_hex4 (by omega)]
  simp only [Option.bind_eq_bind, Option.bind_some, if_pos hhi, hlow, Option.pure_def]
  rw [Nat.add_sub_cancel_left, Nat.add_sub_cancel_left]

/-- The letter of an escape stands for its character. -/
theorem readChar_letter {c l : Char} (h : (c, l) ∈ letters) (rest : List Char) :
    readChar ('\\' :: l :: rest) = some (c.toNat, rest) := by
  simp only [letters, List.mem_cons, Prod.mk.injEq, List.not_mem_nil, or_false] at h
  rcases h with h | h | h | h | h | h | h <;> obtain ⟨rfl, rfl⟩ := h <;> rfl

theorem letter_mem {c l : Char} (h : letters.lookup c = some l) : (c, l) ∈ letters := by
  obtain ⟨l₁, l₂, he, -⟩ := List.lookup_eq_some_iff.mp h
  rw [he]
  simp

/-- What `escape` writes for a character, `readChar` reads as that character. -/
theorem readChar_escape (c : Char) (rest : List Char) :
    readChar (escape c ++ rest) = some (c.toNat, rest) := by
  unfold escape
  split
  · rename_i l hl
    exact readChar_letter (letter_mem hl) rest
  · rename_i hl
    have hq : c ≠ '"' := by rintro rfl; exact absurd hl (by decide)
    have hb : c ≠ '\\' := by rintro rfl; exact absurd hl (by decide)
    split
    · rename_i h
      simp [readChar, hb, h.1]
    · split
      · rename_i h
        exact readUnicode_small h rest
      · rename_i h
        have hc := toNat_lt_scalar c
        have hpair := readUnicode_pair ((c.toNat - 0x10000) / 1024)
          ((c.toNat - 0x10000) % 1024) (by omega) (Nat.mod_lt _ (by omega)) rest
        have hsum : 0x10000 + (c.toNat - 0x10000) / 1024 * 1024 + (c.toNat - 0x10000) % 1024 =
            c.toNat := by omega
        rw [hsum] at hpair
        simpa [readChar] using hpair

theorem escape_ne_quote (c : Char) (cs rest : List Char) : escape c ++ cs ≠ '"' :: rest := by
  intro h
  have hc := readChar_escape c cs
  rw [h] at hc
  simp [readChar] at hc

theorem length_le_escaped (cs : List Char) : cs.length ≤ (cs.flatMap escape).length := by
  induction cs with
  | nil => simp
  | cons c cs ih =>
    have hpos : 0 < (escape c).length := by
      rcases he : escape c with _ | ⟨d, ds⟩
      · have hc := readChar_escape c []
        rw [he] at hc
        simp [readChar] at hc
      · simp
    simp only [List.flatMap_cons, List.length_append, List.length_cons]
    omega

theorem readBody_escaped (cs rest : List Char) (fuel : Nat) (hf : cs.length ≤ fuel) :
    readBody fuel (cs.flatMap escape ++ '"' :: rest) = some (cs.map Char.toNat, rest) := by
  induction cs generalizing fuel with
  | nil => cases fuel <;> simp [readBody]
  | cons c cs ih =>
    cases fuel with
    | zero => simp at hf
    | succ fuel =>
      rw [List.flatMap_cons, List.append_assoc, readBody]
      · simp [readChar_escape, ih fuel (by simpa using hf)]
      · intro r hr
        exact escape_ne_quote c _ r hr

/-- A string is read back, also after the space that follows a comma. -/
theorem readString_quote (s : String) (rest : List Char) :
    readString (quote s ++ rest) = some (.text s, rest) ∧
      readString (' ' :: (quote s ++ rest)) = some (.text s, rest) := by
  have hbody : readBody (s.toList.flatMap escape ++ '"' :: rest).length
      (s.toList.flatMap escape ++ '"' :: rest) = some (s.toList.map Char.toNat, rest) := by
    apply readBody_escaped
    have := length_le_escaped s.toList
    simp only [List.length_append]
    omega
  constructor <;>
    simp [readString, quote, skipSpace, hbody, -List.length_append]

example : dumps ["kubeflow-userid"] = "[\"kubeflow-userid\"]" := by decide

/-! ## Names in the text of a list -/

/-- A name that stands in the text of a list as it is, and apart from what is around it. -/
def Plain (s : String) : Prop :=
  s ≠ "" ∧ ∀ c ∈ s.toList, escape c = [c] ∧ c ∉ ['[', ']', ',', ' ']

instance (s : String) : Decidable (Plain s) :=
  decidable_of_iff (s ≠ "" ∧ (s.toList.all fun c =>
    escape c = [c] ∧ c ∉ ['[', ']', ',', ' ']) = true) (by simp [Plain])

theorem Plain.quote {s : String} (h : Plain s) : quote s = '"' :: s.toList ++ ['"'] := by
  have hmap : s.toList.flatMap escape = s.toList.flatMap fun c => [c] := by
    simp only [List.flatMap]
    exact congrArg List.flatten (List.map_congr_left fun c hc => (h.2 c hc).1)
  rw [json_strings.quote, hmap, List.flatMap_singleton']

section parts

variable {s : String}

/-- The characters around the names of a list. -/
theorem Plain.notMem (h : Plain s) {c : Char} (hc : c ∈ ['"', '[', ']', ',', ' ']) :
    c ∉ s.toList := by
  intro hmem
  obtain ⟨he, hn⟩ := h.2 c hmem
  rcases List.mem_cons.mp hc with rfl | hc
  · revert he
    decide
  · exact hn hc

theorem Plain.infix_cons (h : Plain s) {c : Char} (hc : c ∈ ['"', '[', ']', ',', ' '])
    (rest : List Char) :
    s.toList <:+: c :: rest ↔ s.toList <:+: rest :=
  separators.infix_cons (by simpa using h.1) (h.notMem hc) rest

theorem Plain.infix_quote (h : Plain s) {x : String} (hx : Plain x) (rest : List Char) :
    s.toList <:+: json_strings.quote x ++ rest ↔ s.toList <:+: x.toList ∨ s.toList <:+: rest := by
  rw [hx.quote, List.cons_append, List.cons_append, h.infix_cons (by simp), List.append_assoc,
    List.singleton_append]
  exact separators.infix_append_cons (h.notMem (by simp)) ..

theorem Plain.infix_dumpsRest (h : Plain s) {ss : List String} (hss : ∀ x ∈ ss, Plain x) :
    s.toList <:+: dumpsRest ss ↔ ∃ x ∈ ss, s.toList <:+: x.toList := by
  induction ss with
  | nil =>
    rw [dumpsRest, h.infix_cons (by simp)]
    simp [h.1]
  | cons x ss ih =>
    have hx := hss x List.mem_cons_self
    rw [dumpsRest, List.cons_append, List.cons_append, h.infix_cons (by simp),
      h.infix_cons (by simp), h.infix_quote hx, ih fun y hy => hss y (List.mem_cons_of_mem _ hy)]
    simp

/-- A plain name is found in the text of a list when it is a part of a name of the list. -/
theorem Plain.infix_dumps (h : Plain s) {ss : List String} (hss : ∀ x ∈ ss, Plain x) :
    s.toList <:+: (dumps ss).toList ↔ ∃ x ∈ ss, s.toList <:+: x.toList := by
  cases ss with
  | nil =>
    have htext : (dumps []).toList = '[' :: dumpsRest [] := rfl
    rw [htext, h.infix_cons (by simp), h.infix_dumpsRest hss]
  | cons x ss =>
    have hx := hss x List.mem_cons_self
    rw [dumps, String.toList_ofList, List.cons_append, h.infix_cons (by simp), h.infix_quote hx,
      h.infix_dumpsRest fun y hy => hss y (List.mem_cons_of_mem _ hy)]
    simp

end parts

end json_strings
