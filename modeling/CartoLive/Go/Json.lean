import CartoLive.Go.Text

/-!
# JSON values

What `encoding/json` writes and reads, as the tree of a text: a finite double is
written in the shortest form that reads back as itself, so a number is its value.
Reading an object into a struct takes each member in turn, finds its field by name
(or by folded name), and fails on a value of another type; `null` changes nothing.
-/

namespace CartoLive.Go

inductive Json
  | null
  | bool (value : Bool)
  | number (value : ℚ)
  | text (value : String)
  | array (items : List Json)
  | object (members : List (String × Json))

namespace Json

/-! ## Writing -/

/-- A double; not-a-number and the infinities have no text. -/
def ofFloat : F64 → Option Json
  | .fin value => some (.number value)
  | _ => none

theorem ofFloat_eq_some {x : F64} {j : Json} (h : ofFloat x = some j) :
    ∃ value, x = .fin value ∧ j = .number value := by
  cases x with
  | fin value => exact ⟨value, rfl, (Option.some.inj h).symm⟩
  | nan => cases h
  | inf negative => cases h

def ofInt (value : Int) : Json := .number value

/-- A slice: a nil one is `null`. -/
def ofSlice (isNil : Bool) (items : List Json) : Json :=
  if items = [] ∧ isNil then .null else .array items

def ofTexts (isNil : Bool) (items : List String) : Json := ofSlice isNil (items.map .text)

/-- The member of a field marked `omitempty`. -/
def omitEmpty (key : String) (empty : Bool) (value : Json) : List (String × Json) :=
  if empty then [] else [(key, value)]

def omitText (key value : String) : List (String × Json) := omitEmpty key (value = "") (.text value)

def omitTexts (key : String) (items : List String) : List (String × Json) :=
  omitEmpty key items.isEmpty (ofTexts false items)

/-- The member of a pointer marked `omitempty`. -/
def omitNil {τ : Type} (key : String) (write : τ → Option Json) :
    Option τ → Option (List (String × Json))
  | none => some []
  | some value => (write value).map fun j => [(key, j)]

theorem mem_omitEmpty {key : String} {empty : Bool} {value : Json} {m : String × Json}
    (h : m ∈ omitEmpty key empty value) : m.1 = key := by
  unfold omitEmpty at h
  split at h
  · cases h
  · rw [List.mem_singleton.mp h]

/-! ## Reading -/

/-- The folded form of a name. Of the letters beyond ASCII, only two fold to a
letter of a field name. -/
def foldName (name : String) : String :=
  String.ofList (name.toList.map fun c =>
    if c.toNat = 0x17F then 'S' else if c.toNat = 0x212A then 'K' else c.toUpper)

/-- A field of the struct that is read into. -/
structure Field (σ : Type) where
  name : String
  read : Json → σ → Option σ

variable {σ τ : Type} {fields : List (Field σ)}

def findField (fields : List (Field σ)) (key : String) : Option (Field σ) :=
  (fields.find? fun f => f.name = key).or (fields.find? fun f => foldName f.name = foldName key)

def readMembers (fields : List (Field σ)) : List (String × Json) → σ → Option σ
  | [], s => some s
  | (key, value) :: members, s =>
    match findField fields key with
    | some f => (f.read value s).bind (readMembers fields members)
    | none => readMembers fields members s

def readStruct (fields : List (Field σ)) : Json → σ → Option σ
  | .null, s => some s
  | .object members, s => readMembers fields members s
  | _, _ => none

def readFloat (set : F64 → σ → σ) : Json → σ → Option σ
  | .null, s => some s
  | .number value, s => some (set (.fin value) s)
  | _, _ => none

/-- A pointer; a value that is not `null` is read into what it points to. -/
def readPointer (zero : τ) (read : Json → τ → Option τ) (get : σ → Option τ)
    (set : Option τ → σ → σ) : Json → σ → Option σ
  | .null, s => some (set none s)
  | j, s => (read j ((get s).getD zero)).map fun value => set (some value) s

def readSlice (zero : τ) (read : Json → τ → Option τ) (set : List τ → σ → σ) : Json → σ → Option σ
  | .null, s => some (set [] s)
  | .array items, s => (items.mapM fun j => read j zero).map fun values => set values s
  | _, _ => none

/-- A double is read as it was written. -/
theorem readFloat_ofFloat {x : F64} {j : Json} (h : ofFloat x = some j) (set : F64 → σ → σ)
    (s : σ) : readFloat set j s = some (set x s) := by
  obtain ⟨value, rfl, rfl⟩ := ofFloat_eq_some h
  rfl

/-- Members that are no fields are skipped. -/
theorem readMembers_append_of_unknown {members : List (String × Json)}
    (h : ∀ m ∈ members, (findField fields m.1).isNone = true) (rest : List (String × Json))
    (s : σ) :
    readMembers fields (members ++ rest) s = readMembers fields rest s := by
  induction members with
  | nil => rfl
  | cons m members ih =>
    have hunknown := Option.isNone_iff_eq_none.mp (h m List.mem_cons_self)
    rw [List.cons_append, readMembers, hunknown]
    exact ih fun m' hm' => h m' (List.mem_cons_of_mem _ hm')

theorem readMembers_of_unknown {members : List (String × Json)}
    (h : ∀ m ∈ members, (findField fields m.1).isNone = true) (s : σ) :
    readMembers fields members s = some s := by
  rw [← List.append_nil members, readMembers_append_of_unknown h]
  rfl

theorem readMembers_omitEmpty_append {key : String} (h : (findField fields key).isNone = true)
    (empty : Bool) (value : Json) (rest : List (String × Json)) (s : σ) :
    readMembers fields (omitEmpty key empty value ++ rest) s = readMembers fields rest s :=
  readMembers_append_of_unknown (fun m hm => by rw [mem_omitEmpty hm]; exact h) rest s

theorem readMembers_omitText_append {key : String} (h : (findField fields key).isNone = true)
    (value : String) (rest : List (String × Json)) (s : σ) :
    readMembers fields (omitText key value ++ rest) s = readMembers fields rest s :=
  readMembers_omitEmpty_append h _ _ rest s

theorem readMembers_omitTexts_append {key : String} (h : (findField fields key).isNone = true)
    (items : List String) (rest : List (String × Json)) (s : σ) :
    readMembers fields (omitTexts key items ++ rest) s = readMembers fields rest s :=
  readMembers_omitEmpty_append h _ _ rest s

theorem readMembers_cons_of_unknown {key : String} (h : (findField fields key).isNone = true)
    (value : Json) (rest : List (String × Json)) (s : σ) :
    readMembers fields ((key, value) :: rest) s = readMembers fields rest s := by
  rw [readMembers, Option.isNone_iff_eq_none.mp h]

theorem readMembers_cons_of_field {key : String} {f : Field σ} (h : findField fields key = some f)
    (value : Json) (rest : List (String × Json)) (s : σ) :
    readMembers fields ((key, value) :: rest) s =
      (f.read value s).bind (readMembers fields rest) := by
  rw [readMembers, h]

/-- A pointer that is omitted when nil is read as what it points to. -/
theorem readMembers_omitNil_append {ρ : Type} {key : String} {f : Field σ}
    (hfield : findField fields key = some f) {write : ρ → Option Json} {value : Option ρ}
    {members : List (String × Json)} (h : omitNil key write value = some members) {s s' : σ}
    (hnil : value = none → s' = s)
    (hread : ∀ v ∈ value, ∀ j, write v = some j → f.read j s = some s')
    (rest : List (String × Json)) :
    readMembers fields (members ++ rest) s = readMembers fields rest s' := by
  cases value with
  | none =>
    cases h
    rw [hnil rfl]
    rfl
  | some v =>
    obtain ⟨j, hj, rfl⟩ := Option.map_eq_some_iff.mp h
    rw [List.singleton_append, readMembers_cons_of_field hfield, hread v rfl j hj, Option.bind_some]

theorem readPointer_of_ne_null {zero : τ} {read : Json → τ → Option τ} {get : σ → Option τ}
    {set : Option τ → σ → σ} {j : Json} (hj : j ≠ .null) (s : σ) :
    readPointer zero read get set j s =
      (read j ((get s).getD zero)).map fun value => set (some value) s := by
  unfold readPointer
  split
  · exact absurd rfl hj
  · rfl

/-- Items are read one by one as they were written. -/
theorem mapM_read {zero : τ} {read : Json → τ → Option τ} {ρ : Type} {write : ρ → Option Json}
    {f : ρ → τ} (hread : ∀ v j, write v = some j → read j zero = some (f v)) {values : List ρ}
    {items : List Json} (h : values.mapM write = some items) :
    items.mapM (fun j => read j zero) = some (values.map f) := by
  induction values generalizing items with
  | nil =>
    cases h
    rfl
  | cons v values ih =>
    rw [List.mapM_cons] at h
    obtain ⟨j, hj, hcons⟩ := Option.bind_eq_some_iff.mp h
    obtain ⟨rest, hrest, hlist⟩ := Option.bind_eq_some_iff.mp hcons
    cases hlist
    rw [List.mapM_cons, hread v j hj, ih hrest]
    rfl

/-- A slice is read item by item; a nil slice is one without items. -/
theorem readSlice_ofSlice {zero : τ} {read : Json → τ → Option τ} {set : List τ → σ → σ}
    {ρ : Type} {write : ρ → Option Json} {f : ρ → τ}
    (hread : ∀ v j, write v = some j → read j zero = some (f v)) {values : List ρ}
    {items : List Json} (h : values.mapM write = some items) (isNil : Bool) (s : σ) :
    readSlice zero read set (ofSlice isNil items) s = some (set (values.map f) s) := by
  have hitems := mapM_read hread h
  unfold ofSlice
  split
  · rename_i hnil
    rw [hnil.1] at hitems
    rw [← Option.some.inj hitems]
    rfl
  · rw [readSlice, hitems]
    rfl

end Json

end CartoLive.Go
