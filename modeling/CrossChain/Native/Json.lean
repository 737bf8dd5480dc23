import Mathlib.Data.Rat.Floor
import CrossChain.ForStd.Assoc
import CrossChain.Native.Basic

/-!
# Json values

The values of the two json libraries: json_spirit reads the coin nodes'
replies, jsoncpp the requests.  A `double` is the decimal it stands for.
Each library's accessors are given with the exceptions they raise.
-/

namespace CrossChain

/-- A json value. -/
inductive Json where
  | null
  | object (members : List (String × Json))
  | array (elems : List Json)
  | string (s : Str)
  | bool (b : Bool)
  | int (i : Int)
  | real (q : ℚ)

/-- `json_spirit::Object`. -/
abbrev Object := List (String × Json)

namespace Json

/-- Induction over the parts of a value. -/
@[elab_as_elim]
theorem parts_induction {P : Json → Prop} (null : P null) (bool : ∀ b, P (bool b))
    (int : ∀ i, P (int i)) (real : ∀ q, P (real q)) (string : ∀ s, P (string s))
    (array : ∀ elems : List Json, (∀ v ∈ elems, P v) → P (array elems))
    (object : ∀ members : Object, (∀ m ∈ members, P m.2) → P (object members)) (v : Json) :
    P v := by
  apply @Json.rec P (fun members => ∀ m ∈ members, P m.2) (fun elems => ∀ v ∈ elems, P v)
    fun m => P m.2
  · exact null
  · exact object
  · exact array
  · exact string
  · exact bool
  · exact int
  · exact real
  · exact List.forall_mem_nil _
  · exact fun m members hm hmembers => List.forall_mem_cons.mpr ⟨hm, hmembers⟩
  · exact List.forall_mem_nil _
  · exact fun v elems hv helems => List.forall_mem_cons.mpr ⟨hv, helems⟩
  · exact fun name v hv => hv

/-! ## json_spirit -/

/-- `isNull`. -/
def isNull : Json → Bool
  | null => true
  | _ => false

/-- `getString`. -/
def getString : Json → Except Exn Str
  | string s => .ok s
  | _ => .error .runtimeError

/-- `getObject`. -/
def getObject : Json → Except Exn Object
  | object members => .ok members
  | _ => .error .runtimeError

/-- `getArray`. -/
def getArray : Json → Except Exn (List Json)
  | array elems => .ok elems
  | _ => .error .runtimeError

/-- `getReal`, which also reads an integer. -/
def getReal : Json → Except Exn ℚ
  | int i => .ok i
  | real q => .ok q
  | _ => .error .runtimeError

@[simp] theorem getString_eq_ok_iff {v : Json} {s : Str} : v.getString = .ok s ↔ v = string s := by
  cases v <;> simp [getString]

@[simp] theorem getObject_eq_ok_iff {v : Json} {o : Object} :
    v.getObject = .ok o ↔ v = object o := by
  cases v <;> simp [getObject]

@[simp] theorem getArray_eq_ok_iff {v : Json} {vs : List Json} :
    v.getArray = .ok vs ↔ v = array vs := by
  cases v <;> simp [getArray]

/-! ## jsoncpp -/

/-- `operator[]` with a member name. -/
def index : Json → String → Except Exn Json
  | null, _ => .ok null
  | object members, key => .ok ((members.lookup key).getD null)
  | _, _ => .error .assertFailed

/-- `isArray`, true of null too. -/
def isArray : Json → Bool
  | null | array _ => true
  | _ => false

/-- `isObject`, true of null too. -/
def isObject : Json → Bool
  | null | object _ => true
  | _ => false

/-- `isString`. -/
def isString : Json → Bool
  | string _ => true
  | _ => false

/-- `isMember`, of an object. -/
def isMember : Json → String → Bool
  | object members, key => (members.lookup key).isSome
  | _, _ => false

/-- `v == text`, which compares C strings. -/
def equalsText (v : Json) (text : String) : Bool :=
  match v with
  | string s => cStr s == cStr (str text)
  | _ => false

/-- `asString`, which returns through a C string. -/
def asString : Json → Except Exn Str
  | null => .ok []
  | string s => .ok (cStr s)
  | bool b => .ok (str (if b then "true" else "false"))
  | _ => .error .runtimeError

/-- `asDouble`. -/
def asDouble : Json → Except Exn ℚ
  | null => .ok 0
  | int i => .ok i
  | real q => .ok q
  | bool b => .ok (if b then 1 else 0)
  | _ => .error .runtimeError

end Json

/-- Two reads in a row return when both do. -/
theorem except_bind_eq_ok_iff {α β : Type} {x : Except Exn α} {f : α → Except Exn β} {b : β} :
    (x >>= f) = .ok b ↔ ∃ a, x = .ok a ∧ f a = .ok b := by
  cases x <;> simp [bind, Except.bind]

namespace Object

/-- `std::map::at`. -/
def at' (object : Object) (key : String) : Except Exn Json :=
  match object.lookup key with
  | some v => .ok v
  | none => .error .outOfRange

/-- `object[key] = v`. -/
def set (object : Object) (key : String) (v : Json) : Object :=
  (key, v) :: object.filter (·.1 != key)

@[simp] theorem at'_eq_ok_iff {o : Object} {key : String} {v : Json} :
    o.at' key = .ok v ↔ o.lookup key = some v := by
  rw [at']
  cases o.lookup key <;> simp

@[simp] theorem lookup_set_self (o : Object) (key : String) (v : Json) :
    (o.set key v).lookup key = some v :=
  Assoc.lookup_set_self o key v

@[simp] theorem lookup_set_ne (o : Object) {key key' : String} (v : Json) (h : key' ≠ key) :
    (o.set key v).lookup key' = o.lookup key' :=
  Assoc.lookup_set_ne o v h

end Object

end CrossChain
