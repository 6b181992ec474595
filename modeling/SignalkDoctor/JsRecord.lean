/-!
# JsRecord — looking a key up in an object literal

A lookup `m[k]` and the test `k in m` find the own entries of a literal, and under twelve names what every object
inherits.
-/
namespace SignalkDoctor
namespace JsRecord

/-- The properties of `Object.prototype`, which an object literal inherits. -/
def objectPrototypeKeys : List String :=
  ["constructor", "__defineGetter__", "__defineSetter__", "hasOwnProperty", "__lookupGetter__", "__lookupSetter__",
    "isPrototypeOf", "propertyIsEnumerable", "toString", "valueOf", "__proto__", "toLocaleString"]

/-- What a lookup finds: an own value, or the function or object inherited under a name. -/
inductive Found (β : Type) where
  | own (v : β)
  | inherited (name : String)
  deriving DecidableEq, Repr

variable {β : Type}

/-- `m[key]`; `key in m` when something is found. -/
def get? (m : List (String × β)) (key : String) : Option (Found β) :=
  match m.lookup key with
  | some v => some (.own v)
  | none => if key ∈ objectPrototypeKeys then some (.inherited key) else none

theorem lookup_isSome_iff (k : String) : ∀ m : List (String × β), (m.lookup k).isSome = true ↔ k ∈ m.map Prod.fst
  | [] => by simp
  | (a, b) :: m => by
    rw [List.lookup_cons, List.map_cons, List.mem_cons]
    by_cases hka : k = a
    · simp [hka]
    · have hb : (k == a) = false := by simpa using hka
      rw [hb]
      simp only [hka, false_or]
      exact lookup_isSome_iff k m

/-- `key in m` -/
theorem get?_isSome_iff (m : List (String × β)) (key : String) :
    (get? m key).isSome = true ↔ key ∈ m.map Prod.fst ∨ key ∈ objectPrototypeKeys := by
  rw [← lookup_isSome_iff]
  unfold get?
  cases m.lookup key with
  | some v => simp
  | none => by_cases hp : key ∈ objectPrototypeKeys <;> simp [hp]

theorem get?_own {m : List (String × β)} {key : String} {v : β} : get? m key = some (.own v) ↔ m.lookup key = some v := by
  unfold get?
  cases m.lookup key with
  | some w => simp
  | none => by_cases hp : key ∈ objectPrototypeKeys <;> simp [hp]

end JsRecord
end SignalkDoctor
