-- Codecs: how data goes into a JSON value and comes out again. A codec carries
-- the proof that it decodes what it encodes, so the codec of a record needs no
-- proof but the one that its field names differ. Nothing here is about one program.
import OidcGatekeeper.JsonValues
import Mathlib.Data.List.AList

open json_strings

namespace json

/-! ## Objects with texts as keys -/

def members (ms : List (String × Value)) : List (Str × Value) := ms.map fun m => (.text m.1, m.2)

/-- The members of an object whose keys are texts. -/
def texts (ms : List (Str × Value)) : List (String × Value) :=
  ms.filterMap fun
    | (.text k, v) => some (k, v)
    | (.points _ _, _) => none

@[simp] theorem texts_members (ms : List (String × Value)) : texts (members ms) = ms := by
  induction ms with
  | nil => rfl
  | cons m ms ih => exact congrArg (m :: ·) ih

theorem exact_members {ms : List (String × Value)} (hkeys : (ms.map Prod.fst).Nodup)
    (h : ∀ m ∈ ms, m.2.Exact) : (Value.obj (members ms)).Exact := by
  constructor
  · have hmap : (members ms).map Prod.fst = (ms.map Prod.fst).map Str.text := by
      simp [members, Function.comp_def]
    rw [hmap]
    exact hkeys.map fun _ _ he => Str.text.inj he
  · clear hkeys
    induction ms with
    | nil => trivial
    | cons m ms ih =>
      rw [List.forall_mem_cons] at h
      exact ⟨h.1, ih h.2⟩

/-- Data as a JSON value. What is encoded is decoded, through a text too. -/
structure Codec (α : Type) where
  encode : α → Value
  decode : Value → Option α
  exact : ∀ a, (encode a).Exact
  decode_encode : ∀ a, decode (encode a) = some a

namespace Codec

variable {α β : Type}

/-- `json.dumps` of the data. -/
def dumps (c : Codec α) (a : α) : String := json.dumps (c.encode a)

/-- `json.loads` of the text, and then the data; `none` when one of the two fails. -/
def loads (c : Codec α) (text : String) : Option α := (json.loads text).toOption.bind c.decode

/-- The text of some data is read as that data. -/
@[simp] theorem loads_dumps (c : Codec α) (a : α) : c.loads (c.dumps a) = some a := by
  rw [loads, dumps, json.loads_dumps (c.exact a), Except.toOption, Option.bind_some,
    c.decode_encode]

/-! ## Plain values -/

def string : Codec String where
  encode s := .str (.text s)
  decode
    | .str (.text s) => some s
    | _ => none
  exact _ := trivial
  decode_encode _ := rfl

def int : Codec Integer where
  encode := .int
  decode
    | .int n => some n
    | _ => none
  exact _ := trivial
  decode_encode _ := rfl

/-- Any value that is read as it was written. -/
def value : Codec { v : Value // v.Exact } where
  encode v := v.val
  decode v := if h : v.Exact then some ⟨v, h⟩ else none
  exact v := v.property
  decode_encode v := dif_pos v.property

/-- Other data in the place of `α`: a part of it, or a copy. -/
def via (c : Codec α) (f : β → α) (g : α → Option β) (h : ∀ b, g (f b) = some b) : Codec β where
  encode b := c.encode (f b)
  decode v := (c.decode v).bind g
  exact b := c.exact (f b)
  decode_encode b := by rw [c.decode_encode, Option.bind_some, h]

/-- The members of an enumeration, each by its value. -/
def enum (members : List α) (value : α → String)
    (h : ∀ a, members.find? (fun m => value m = value a) = some a) : Codec α :=
  string.via value (fun s => members.find? fun m => value m = s) h

/-- An integer with bounds. -/
def intBetween (lo hi : Int)
    (short : ∀ n : Int, lo ≤ n ∧ n ≤ hi → (Nat.toDigits 10 n.natAbs).length ≤ 4300) :
    Codec { n : Int // lo ≤ n ∧ n ≤ hi } :=
  int.via (fun b => ⟨b.val, short b.val b.property⟩)
    (fun n => if h : lo ≤ n.val ∧ n.val ≤ hi then some ⟨n.val, h⟩ else none)
    fun b => by simp [b.property]

/-- `None` is `null`. -/
def option (c : Codec α) (h : ∀ a, c.encode a ≠ .null) : Codec (Option α) where
  encode
    | none => .null
    | some a => c.encode a
  decode
    | .null => some none
    | v => (c.decode v).map some
  exact
    | none => trivial
    | some a => c.exact a
  decode_encode
    | none => rfl
    | some a => by
      dsimp only
      split
      · rename_i he
        exact absurd he (h a)
      · simp [c.decode_encode]

/-- A union, whose parts are tried from left to right. -/
def either (c : Codec α) (d : Codec β) (h : ∀ b, c.decode (d.encode b) = none) :
    Codec (α ⊕ β) where
  encode := Sum.elim c.encode d.encode
  decode v := ((c.decode v).map .inl).or ((d.decode v).map .inr)
  exact
    | .inl a => c.exact a
    | .inr b => d.exact b
  decode_encode
    | .inl a => by simp [c.decode_encode]
    | .inr b => by simp [d.decode_encode, h]

/-! ## Lists and dicts -/

theorem itemsExact_map (c : Codec α) (xs : List α) : ItemsExact (xs.map c.encode) := by
  induction xs with
  | nil => trivial
  | cons x xs ih => exact ⟨c.exact x, ih⟩

theorem mapM_decode (c : Codec α) (xs : List α) : (xs.map c.encode).mapM c.decode = some xs := by
  induction xs with
  | nil => rfl
  | cons x xs ih => simp [List.mapM_cons, c.decode_encode, ih]

def list (c : Codec α) : Codec (List α) where
  encode xs := .arr (xs.map c.encode)
  decode
    | .arr vs => vs.mapM c.decode
    | _ => none
  exact := c.itemsExact_map
  decode_encode := c.mapM_decode

/-- One member of an object. -/
def entry (c : Codec α) : Str × Value → Option (Sigma fun _ : String => α)
  | (.text k, v) => (c.decode v).map (Sigma.mk k)
  | (.points _ _, _) => none

/-- The members of a dict. -/
def entries (c : Codec α) (es : List (Sigma fun _ : String => α)) : List (Str × Value) :=
  members (es.map fun e => (e.1, c.encode e.2))

theorem mapM_entry (c : Codec α) (es : List (Sigma fun _ : String => α)) :
    (c.entries es).mapM c.entry = some es := by
  induction es with
  | nil => rfl
  | cons e es ih =>
    have hentry : c.entry (.text e.1, c.encode e.2) = some e := by
      simp [entry, c.decode_encode]
    change ((Str.text e.1, c.encode e.2) :: c.entries es).mapM c.entry = some (e :: es)
    rw [List.mapM_cons, hentry, ih]
    rfl

/-- A dict with values of one type. -/
def dict (c : Codec α) : Codec (AList fun _ : String => α) where
  encode d := .obj (c.entries d.entries)
  decode
    | .obj ms => do
      let es ← ms.mapM c.entry
      if h : es.keys.Nodup then some ⟨es, h⟩ else none
    | _ => none
  exact d := by
    apply exact_members
    · have hkeys : (d.entries.map Sigma.fst).Nodup := d.nodupKeys
      simpa [Function.comp_def] using hkeys
    · intro m hm
      obtain ⟨e, -, rfl⟩ := List.mem_map.mp hm
      exact c.exact e.2
  decode_encode d := by
    have hkeys : d.entries.keys.Nodup := d.nodupKeys
    simp [c.mapM_entry, hkeys]

/-! ## Values that may be missing -/

def listOrNone (c : Codec α) : Codec (Option (List α)) := c.list.option fun _ => by simp [list]

def dictOrNone (c : Codec α) : Codec (Option (AList fun _ : String => α)) :=
  c.dict.option fun _ => by simp [dict]

def stringOrNone : Codec (Option String) := string.option fun _ => by simp [string]

end Codec

/-! ## Texts -/

/-- Some writer and reader of JSON texts. What is written is read as it was, and the empty
text is no JSON. -/
structure Format where
  write : Value → String
  read : String → Option Value
  read_write : ∀ {v : Value}, v.Exact → read (write v) = some v
  read_empty : read "" = none

/-- The format of Python. -/
def Format.python : Format where
  write := json.dumps
  read text := (json.loads text).toOption
  read_write h := by rw [json.loads_dumps h, Except.toOption]
  read_empty := rfl

theorem Format.write_ne_empty (F : Format) {v : Value} (h : v.Exact) : F.write v ≠ "" := by
  intro he
  have hr := F.read_write h
  rw [he, F.read_empty] at hr
  cases hr

/-! ## Records -/

/-- Some fields of an object. They are found by name, so it does not matter what other
fields the object has. -/
structure Fields (α : Type) where
  keys : List String
  encode : α → List (String × Value)
  decode : List (String × Value) → Option α
  exact : ∀ a, ∀ m ∈ encode a, m.2.Exact
  keys_encode : ∀ a, (encode a).map Prod.fst = keys
  decode_encode : ∀ a ms, (∀ k ∈ keys, ms.lookup k = (encode a).lookup k) → decode ms = some a

namespace Fields

variable {α β : Type}

/-- A field that has to be there. -/
def field (k : String) (c : Codec α) : Fields α where
  keys := [k]
  encode a := [(k, c.encode a)]
  decode ms := (ms.lookup k).bind c.decode
  exact a := List.forall_mem_singleton.mpr (c.exact a)
  keys_encode _ := rfl
  decode_encode a ms h := by
    rw [h k List.mem_cons_self]
    simp [c.decode_encode]

/-- A field that has a default. -/
def fieldOr (k : String) (default : α) (c : Codec α) : Fields α where
  keys := [k]
  encode a := [(k, c.encode a)]
  decode ms := match ms.lookup k with
    | some v => c.decode v
    | none => some default
  exact a := List.forall_mem_singleton.mpr (c.exact a)
  keys_encode _ := rfl
  decode_encode a ms h := by
    rw [h k List.mem_cons_self]
    simp [c.decode_encode]

/-- A field that is written, and that nobody reads. -/
def computed (k : String) (v : Value) (h : v.Exact) : Fields Unit where
  keys := [k]
  encode _ := [(k, v)]
  decode _ := some ()
  exact _ := List.forall_mem_singleton.mpr h
  keys_encode _ := rfl
  decode_encode _ _ _ := rfl

theorem lookup_none_of_keys (ms : List (String × Value)) {k : String}
    (h : k ∉ ms.map Prod.fst) : ms.lookup k = none := by
  rw [List.lookup_eq_none_iff]
  intro p hp
  have hne : k ≠ p.1 := fun he => h (he ▸ List.mem_map_of_mem hp)
  simpa using hne

theorem lookup_some_of_keys (ms : List (String × Value)) {k : String}
    (h : k ∈ ms.map Prod.fst) : (ms.lookup k).isSome := by
  rw [List.lookup_isSome_iff]
  obtain ⟨p, hp, rfl⟩ := List.mem_map.mp h
  exact ⟨p, hp, by simp⟩

/-- The fields of two parts, side by side. -/
def both (f : Fields α) (g : Fields β) (h : ∀ k ∈ f.keys, k ∉ g.keys := by decide) :
    Fields (α × β) where
  keys := f.keys ++ g.keys
  encode a := f.encode a.1 ++ g.encode a.2
  decode ms := do return (← f.decode ms, ← g.decode ms)
  exact a := List.forall_mem_append.mpr ⟨f.exact a.1, g.exact a.2⟩
  keys_encode a := by rw [List.map_append, f.keys_encode, g.keys_encode]
  decode_encode a ms hms := by
    have hf : f.decode ms = some a.1 := by
      refine f.decode_encode a.1 ms fun k hk => ?_
      have hs := lookup_some_of_keys (f.encode a.1) (k := k) (by rwa [f.keys_encode])
      rw [hms k (List.mem_append_left _ hk), List.lookup_append, Option.or_of_isSome hs]
    have hg : g.decode ms = some a.2 := by
      refine g.decode_encode a.2 ms fun k hk => ?_
      have hn := lookup_none_of_keys (f.encode a.1) (k := k)
        (by rw [f.keys_encode]; exact fun hkf => h k hkf hk)
      rw [hms k (List.mem_append_right _ hk), List.lookup_append, hn, Option.none_or]
    simp [hf, hg]

/-- The fields as a record. -/
def via (f : Fields α) (parts : β → α) (whole : α → Option β)
    (h : ∀ b, whole (parts b) = some b) :
    Fields β where
  keys := f.keys
  encode b := f.encode (parts b)
  decode ms := (f.decode ms).bind whole
  exact b := f.exact (parts b)
  keys_encode b := f.keys_encode (parts b)
  decode_encode b ms hms := by rw [f.decode_encode (parts b) ms hms, Option.bind_some, h]

end Fields

namespace Codec

/-- An object with these fields. -/
def object {α : Type} (f : Fields α) (h : f.keys.Nodup := by decide) : Codec α where
  encode a := .obj (members (f.encode a))
  decode
    | .obj ms => f.decode (texts ms)
    | _ => none
  exact a := exact_members ((f.keys_encode a).symm ▸ h) (f.exact a)
  decode_encode a := by
    dsimp only
    rw [texts_members]
    exact f.decode_encode a _ fun _ _ => rfl

def objectOrNone {α : Type} (f : Fields α) (h : f.keys.Nodup := by decide) : Codec (Option α) :=
  (object f h).option fun _ => by simp [object]

end Codec

end json
