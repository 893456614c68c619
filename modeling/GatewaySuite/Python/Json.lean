import GatewaySuite.Python.Text
import Mathlib.Data.List.Nodup

/-! JSON values as `json.loads` builds them, and the dictionary operations of the
gateways. A dictionary is the list of its entries in insertion order. -/
namespace GatewaySuite.Python

/-- A float is its bit pattern: nothing here computes with one. -/
inductive Json where
  | null
  | bool (value : Bool)
  | int (value : Int)
  | float (bits : UInt64)
  | str (value : Str)
  | arr (items : List Json)
  | obj (entries : List (Str × Json))

abbrev Dict := List (Str × Json)

namespace Json

/-- `isinstance(value, dict)` -/
def dict? : Json → Option Dict
  | .obj entries => some entries
  | _ => none

/-- `isinstance(value, str)` -/
def str? : Json → Option Str
  | .str value => some value
  | _ => none

/-- `value is not None` -/
def notNone : Json → Bool
  | .null => false
  | _ => true

mutual
/-- A value all of whose floats and strings, keys included, pass the tests. -/
def every (number : UInt64 → Bool) (text : Str → Bool) : Json → Bool
  | .null | .bool _ | .int _ => true
  | .float bits => number bits
  | .str value => text value
  | .arr items => everyItem number text items
  | .obj entries => everyEntry number text entries
def everyItem (number : UInt64 → Bool) (text : Str → Bool) : List Json → Bool
  | [] => true
  | item::rest => every number text item && everyItem number text rest
def everyEntry (number : UInt64 → Bool) (text : Str → Bool) : List (Str × Json) → Bool
  | [] => true
  | (key,value)::rest => text key && every number text value && everyEntry number text rest
end

/-- No NaN and no infinity, which have all ones in the exponent. -/
def finite : Json → Bool := every (fun bits => (bits >>> 52) &&& 0x7ff != 0x7ff) fun _ => true

def encodable : Json → Bool := every (fun _ => true) encodes

theorem every_arr (number : UInt64 → Bool) (text : Str → Bool) (items : List Json) :
    every number text (.arr items) = items.all (every number text) := by
  rw [every]
  induction items with
  | nil => rfl
  | cons item rest ih => rw [everyItem,List.all_cons,ih]

theorem every_obj (number : UInt64 → Bool) (text : Str → Bool) (entries : List (Str × Json)) :
    every number text (.obj entries) =
      entries.all fun entry => text entry.1 && every number text entry.2 := by
  rw [every]
  induction entries with
  | nil => rfl
  | cons entry rest ih => rw [everyEntry,List.all_cons,ih]

/-- `bool(value)` -/
def truthy : Json → Bool
  | .null => false
  | .bool value => value
  | .int value => value != 0
  | .float bits => bits <<< 1 != 0
  | .str value => !value.isEmpty
  | .arr items => !items.isEmpty
  | .obj entries => !entries.isEmpty

end Json

/-- `JSONResponse` renders the content. -/
def renders (content : Json) : Bool := content.finite && content.encodable

@[simp] theorem renders_str (text : Str) : renders (.str text) = encodes text := by
  simp [renders,Json.finite,Json.encodable,Json.every]

@[simp] theorem renders_int (value : Int) : renders (.int value) = true := by
  simp [renders,Json.finite,Json.encodable,Json.every]

@[simp] theorem renders_bool (value : Bool) : renders (.bool value) = true := by
  simp [renders,Json.finite,Json.encodable,Json.every]

@[simp] theorem renders_null : renders .null = true := by
  simp [renders,Json.finite,Json.encodable,Json.every]

theorem renders_arr (items : List Json) : renders (.arr items) = items.all renders := by
  apply Bool.eq_iff_iff.mpr
  simp only [renders,Json.finite,Json.encodable,Json.every_arr,Bool.and_eq_true,List.all_eq_true,
    ← forall_and]

theorem renders_obj (entries : Dict) :
    renders (.obj entries) = entries.all fun entry => encodes entry.1 && renders entry.2 := by
  apply Bool.eq_iff_iff.mpr
  simp only [renders,Json.finite,Json.encodable,Json.every_obj,Bool.true_and,Bool.and_eq_true,
    List.all_eq_true,← forall_and]
  grind

inductive LoadsError where
  | JSONDecodeError
  | ValueError
  | RecursionError
deriving DecidableEq, Repr

/-- `d.get(key)`, with `none` for an absent key. -/
def Dict.get (d : Dict) (key : String) : Option Json := d.lookup (lit key)

/-- `{**d, key: value}`: an existing entry keeps its place. -/
def Dict.set (d : Dict) (key : String) (value : Json) : Dict :=
  if (d.lookup (lit key)).isSome then
    d.map fun entry => if entry.1 == lit key then (entry.1,value) else entry
  else d ++ [(lit key,value)]

/-- `d.setdefault(key, value)` -/
def Dict.setdefault (d : Dict) (key : String) (value : Json) : Dict :=
  if (d.lookup (lit key)).isSome then d else d ++ [(lit key,value)]

def Dict.without (d : Dict) (keys : List String) : Dict :=
  d.filter fun entry => !(keys.map lit).contains entry.1

private theorem lookup_replace (d : Dict) (key name : Str) (value : Json) :
    (d.map fun entry => if entry.1 == key then (entry.1,value) else entry).lookup name =
      (d.lookup name).map fun old => if name = key then value else old := by
  induction d with
  | nil => rfl
  | cons entry rest ih =>
    obtain ⟨k,v⟩ := entry
    have head : (if (k == key) = true then (k,value) else (k,v)) =
        (k,if k = key then value else v) := by
      by_cases same : k = key <;> simp [same]
    simp only [List.map_cons,head,List.lookup_cons,ih]
    by_cases here : name = k
    · simp [here]
    · have other : (name == k) = false := by simpa using here
      simp only [other]

private theorem lookup_append_single (d : Dict) (key name : Str) (value : Json) :
    (d ++ [(key,value)]).lookup name =
      (d.lookup name).or (if name = key then some value else none) := by
  induction d with
  | nil =>
    by_cases same : name = key
    · simp [same]
    · have other : (name == key) = false := by simpa using same
      simp [List.lookup_cons,other,same]
  | cons entry rest ih =>
    obtain ⟨k,v⟩ := entry
    by_cases here : name = k
    · simp [here]
    · have other : (name == k) = false := by simpa using here
      simp only [List.cons_append,List.lookup_cons,other,ih]

@[simp] theorem Dict.get_set (d : Dict) (key : String) (value : Json) :
    (d.set key value).get key = some value := by
  unfold Dict.get Dict.set
  split
  next found =>
    obtain ⟨old,held⟩ := Option.isSome_iff_exists.mp found
    rw [lookup_replace,held]
    simp
  next absent => simp [lookup_append_single,Option.not_isSome_iff_eq_none.mp absent]

theorem Dict.get_set_ne (d : Dict) {key other : String} (value : Json)
    (distinct : lit other ≠ lit key) : (d.set key value).get other = d.get other := by
  unfold Dict.get Dict.set
  split
  · rw [lookup_replace]
    simp [distinct]
  · simp [lookup_append_single,distinct]

theorem Dict.get_setdefault (d : Dict) (key : String) (value : Json) :
    (d.setdefault key value).get key = some ((d.get key).getD value) := by
  unfold Dict.get Dict.setdefault
  split
  next found =>
    obtain ⟨old,held⟩ := Option.isSome_iff_exists.mp found
    simp [held]
  next absent =>
    simp [lookup_append_single,Option.not_isSome_iff_eq_none.mp absent]

theorem Dict.get_without (d : Dict) (keys : List String) (key : String) :
    (d.without keys).get key = if (keys.map lit).contains (lit key) then none else d.get key := by
  unfold Dict.get Dict.without
  induction d with
  | nil => simp
  | cons entry rest ih =>
    obtain ⟨k,v⟩ := entry
    by_cases listed : k ∈ keys.map lit
    · have dropped : (!(keys.map lit).contains k) = false := by simpa using listed
      rw [List.filter_cons_of_neg (by simp [listed]),ih]
      by_cases here : lit key = k
      · rw [← here] at listed
        simp [listed]
      · have other : (lit key == k) = false := by simpa using here
        simp only [List.lookup_cons,other]
    · have kept : (!(keys.map lit).contains k) = true := by simpa using listed
      rw [List.filter_cons_of_pos (by simpa using kept)]
      by_cases here : lit key = k
      · rw [here]
        simp [listed]
      · have other : (lit key == k) = false := by simpa using here
        simp only [List.lookup_cons,other,ih]

theorem Dict.set_eq {front back : Dict} {key : String} (old value : Json)
    (before : ∀ entry ∈ front, entry.1 ≠ lit key) (behind : ∀ entry ∈ back, entry.1 ≠ lit key) :
    Dict.set (front ++ (lit key,old)::back) key value = front ++ (lit key,value)::back := by
  have kept (part : Dict) (others : ∀ entry ∈ part, entry.1 ≠ lit key) :
      part.map (fun entry => if entry.1 == lit key then (entry.1,value) else entry) = part := by
    conv_rhs => rw [← List.map_id part]
    apply List.map_congr_left
    intro entry member
    simp [others entry member]
  have held : ((front ++ (lit key,old)::back).lookup (lit key)).isSome = true := by
    have here : (front ++ (lit key,old)::back).lookup (lit key) = some old :=
      List.lookup_eq_some_iff.mpr ⟨front,back,rfl,fun entry member => by
        simpa using (before entry member).symm⟩
    rw [here]
    rfl
  rw [Dict.set,if_pos held,List.map_append,List.map_cons,kept front before,kept back behind]
  simp

/-- Where a value is replaced by one that fares no better and no worse, so does the dictionary. -/
theorem Json.every_set (number : UInt64 → Bool) (text : Str → Bool) {d : Dict} {key : String}
    {old new : Json} (distinct : (d.map Prod.fst).Nodup) (held : d.get key = some old)
    (same : every number text new = every number text old) :
    every number text (.obj (d.set key new)) = every number text (.obj d) := by
  obtain ⟨front,back,rfl,_⟩ := List.lookup_eq_some_iff.mp held
  rw [List.map_append,List.map_cons,List.nodup_middle,List.nodup_cons,List.mem_append,not_or] at distinct
  obtain ⟨⟨before,behind⟩,_⟩ := distinct
  have absent (part : Dict) (none : lit key ∉ part.map Prod.fst) : ∀ entry ∈ part, entry.1 ≠ lit key :=
    fun entry member same => none (same ▸ List.mem_map_of_mem member)
  rw [Dict.set_eq old new (absent front before) (absent back behind),every_obj,every_obj]
  simp only [List.all_append,List.all_cons,same]

theorem Dict.without_set (d : Dict) (key : String) (value : Json) :
    (d.set key value).without [key] = d.without [key] := by
  have replaced : Dict.without
      (d.map fun entry => if entry.1 == lit key then (entry.1,value) else entry) [key] =
        d.without [key] := by
    unfold Dict.without
    induction d with
    | nil => rfl
    | cons entry rest ih =>
      simp only [List.map_cons,List.map_nil,List.filter_cons] at ih ⊢
      rw [ih]
      by_cases same : entry.1 = lit key <;> simp [same]
  unfold Dict.set
  split_ifs
  · exact replaced
  · simp [Dict.without]

theorem Dict.without_without (d : Dict) (keys : List String) :
    (d.without keys).without keys = d.without keys := by
  unfold Dict.without
  rw [List.filter_filter]
  simp

end GatewaySuite.Python
