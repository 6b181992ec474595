import Mathlib.Algebra.Ring.Nat
/-!
# Json — JSON values and what the standard codec does

A JSON value is what `JSON.parse` returns.  `JsonCodec` is the pair `JSON.parse` / `JSON.stringify`, by the facts about
it a user relies on: a stringified value parses back to itself, also with white space after it, and no proper prefix of
a stringified object parses.  The facts are stated for the values a program can hold (`Json.wf`): the keys of an object
are distinct and no array index, which an object enumerates out of order, and numbers are exact.
-/
namespace SignalkDoctor

abbrev Text := List Char

/-- A JSON value; of the numbers only the integers, no check of the repository telling two others apart. -/
inductive Json where
  | null
  | bool (b : Bool)
  | num (n : Int)
  | str (s : String)
  | arr (items : List Json)
  | obj (fields : List (String × Json))
  deriving Inhabited, Repr

namespace Json

mutual
def beq : Json → Json → Bool
  | null, null => true
  | bool a, bool b => a == b
  | num a, num b => a == b
  | str a, str b => a == b
  | arr a, arr b => beqList a b
  | obj a, obj b => beqFields a b
  | _, _ => false

def beqList : List Json → List Json → Bool
  | [], [] => true
  | a :: as, b :: bs => beq a b && beqList as bs
  | _, _ => false

def beqFields : List (String × Json) → List (String × Json) → Bool
  | [], [] => true
  | (k, a) :: as, (l, b) :: bs => k == l && beq a b && beqFields as bs
  | _, _ => false
end

mutual
theorem beq_iff : ∀ a b : Json, beq a b = true ↔ a = b
  | null, b => by cases b <;> simp [beq]
  | bool _, b => by cases b <;> simp [beq]
  | num _, b => by cases b <;> simp [beq]
  | str _, b => by cases b <;> simp [beq]
  | arr as, b => by
    cases b with
    | arr bs => simp [beq, beqList_iff as bs]
    | _ => simp [beq]
  | obj as, b => by
    cases b with
    | obj bs => simp [beq, beqFields_iff as bs]
    | _ => simp [beq]

theorem beqList_iff : ∀ as bs : List Json, beqList as bs = true ↔ as = bs
  | [], bs => by cases bs <;> simp [beqList]
  | a :: as, bs => by
    cases bs with
    | nil => simp [beqList]
    | cons b bs => simp [beqList, beq_iff a b, beqList_iff as bs]

theorem beqFields_iff : ∀ as bs : List (String × Json), beqFields as bs = true ↔ as = bs
  | [], bs => by cases bs <;> simp [beqFields]
  | (k, a) :: as, bs => by
    cases bs with
    | nil => simp [beqFields]
    | cons b bs => simp [beqFields, beq_iff a b.2, beqFields_iff as bs, Prod.ext_iff]
end

instance : DecidableEq Json := fun a b => decidable_of_iff (beq a b = true) (beq_iff a b)

/-- Whether `if (v)` takes its branch. -/
def truthy : Json → Bool
  | null => false
  | bool b => b
  | num n => n ≠ 0
  | str s => s ≠ ""
  | arr _ => true
  | obj _ => true

/-- `v[k]`: the own property of an object, `none` for `undefined`. -/
def get? (v : Json) (k : String) : Option Json :=
  match v with
  | obj fields => (fields.find? (fun f => f.1 == k)).map Prod.snd
  | _ => none

/-- `typeof v === 'string' ? v : null`, of a property that may be `undefined`. -/
def strOrNull : Option Json → Option String
  | some (str s) => some s
  | _ => none

/-- `string | null` as a JSON value. -/
def ofStr? : Option String → Json
  | some s => str s
  | none => null

@[simp] theorem strOrNull_ofStr? (s : Option String) : strOrNull (some (ofStr? s)) = s := by
  cases s <;> rfl

/-- A key an object enumerates before the others: the digits of an array index. -/
def isIndexKey (k : String) : Bool := k.toList.all Char.isDigit

def keysOk (ks : List String) : Bool := decide ks.Nodup && ks.all (fun k => !isIndexKey k)

mutual
/-- **A value the program can hold**: keys distinct and enumerated as listed, numbers exact in a double. -/
def wf : Json → Bool
  | null | bool _ | str _ => true
  | num n => decide (n.natAbs ≤ 2 ^ 53)
  | arr items => wfList items
  | obj fields => keysOk (fields.map Prod.fst) && wfFields fields

def wfList : List Json → Bool
  | [] => true
  | v :: vs => wf v && wfList vs

def wfFields : List (String × Json) → Bool
  | [] => true
  | f :: fs => wf f.2 && wfFields fs
end

theorem wfList_eq : ∀ vs : List Json, wfList vs = vs.all wf
  | [] => rfl
  | v :: vs => by rw [wfList, wfList_eq vs, List.all_cons]

@[simp] theorem wf_ofStr? (s : Option String) : (ofStr? s).wf = true := by
  cases s <;> rfl

end Json

def isJsonSpace (c : Char) : Bool := c == ' ' || c == '\n' || c == '\r' || c == '\t'

/-- **`JSON.parse` and `JSON.stringify`**: `stringify 0 v` is `JSON.stringify(v)`, `stringify 2 v` is
`JSON.stringify(v, null, 2)`. -/
structure JsonCodec where
  parse : Text → Option Json
  stringify : Nat → Json → Text
  parse_stringify : ∀ (indent : Nat) (v : Json) (ws : Text), v.wf = true → ws.all isJsonSpace = true →
    parse (stringify indent v ++ ws) = some v
  parse_prefix : ∀ (fields : List (String × Json)) (p : Text), (Json.obj fields).wf = true →
    p <+: stringify 0 (.obj fields) → p ≠ stringify 0 (.obj fields) → parse p = none

namespace JsonCodec

theorem parse_stringify_self (J : JsonCodec) (indent : Nat) (v : Json) (h : v.wf = true) :
    J.parse (J.stringify indent v) = some v := by
  have := J.parse_stringify indent v [] h rfl
  rwa [List.append_nil] at this

/-- What a prefix of a stringified object parses to, if it parses, is the object. -/
theorem parse_of_prefix (J : JsonCodec) {fields : List (String × Json)} {p : Text} {v : Json}
    (hwf : (Json.obj fields).wf = true) (hp : p <+: J.stringify 0 (.obj fields)) (h : J.parse p = some v) :
    v = .obj fields := by
  by_cases hpe : p = J.stringify 0 (.obj fields)
  · rw [hpe, J.parse_stringify_self 0 _ hwf, Option.some.injEq] at h
    exact h.symm
  · rw [J.parse_prefix fields p hwf hp hpe] at h
    cases h

end JsonCodec
end SignalkDoctor
