import SchemaModules.Number.Shortest

/-!
# JSON values

Documents, schemas and instances are JSON values whose objects keep the order of their members.
Whole numbers written without a point or an exponent have any size; all others are floating-point
numbers, so `1` and `1.0` differ although they are equal as numbers.
-/

namespace SchemaModules

open Number

inductive Json
  | null
  | bool (value : Bool)
  | int (value : Int)
  | real (value : Double)
  | str (value : String)
  | arr (items : List Json)
  | obj (members : List (String × Json))
  deriving Inhabited

namespace Json

/-- The members of an object; other values have none. -/
def members : Json → List (String × Json)
  | obj members => members
  | _ => []

def isObject : Json → Bool
  | obj _ => true
  | _ => false

def str? : Json → Option String
  | str text => some text
  | _ => none

def arr? : Json → Option (List Json)
  | arr items => some items
  | _ => none

def obj? : Json → Option (List (String × Json))
  | obj members => some members
  | _ => none

/-- The member of that name, if the value is an object that has one. -/
def get? (value : Json) (key : String) : Option Json := value.members.lookup key

/-- Sets a member: a key that is there keeps its place, a new one comes last. -/
def setMember (key : String) (value : Json) : List (String × Json) → List (String × Json)
  | [] => [(key, value)]
  | (k, v) :: rest => if k = key then (k, value) :: rest else (k, v) :: setMember key value rest

/-- An object of the given members in order. A repeated key keeps its first place and takes the
last value. -/
def ofMembers (members : List (String × Json)) : Json :=
  obj (members.foldl (fun set (key, value) => setMember key value set) [])

/-- False for `null`, `false`, zero, and empty texts, arrays and objects. -/
def isTruthy : Json → Bool
  | null => false
  | bool value => value
  | int value => value != 0
  | real (.finite _ mantissa _) => mantissa != 0
  | real _ => true
  | str text => !text.isEmpty
  | arr items => !items.isEmpty
  | obj members => !members.isEmpty

def ratio? : Json → Option Ratio
  | int value => some (.ofInt value)
  | real value => value.toRatio?
  | _ => none

/-- Whether two values that are not both texts, arrays or objects are equal. Numbers are compared
by value, and a boolean equals only itself. -/
def scalarEqual : Json → Json → Bool
  | null, null => true
  | bool a, bool b => a == b
  | real (.infinite a), real (.infinite b) => a == b
  | a, b =>
    match a.ratio?, b.ratio? with
    | some x, some y => x.equal y
    | _, _ => false

mutual

/-- Equality of values: arrays item by item, objects whatever their order, `1` and `1.0` alike. -/
def same : Json → Json → Bool
  | str a, b => b.str? == some a
  | arr a, b =>
    match b with
    | arr items => sameItems a items
    | _ => false
  | obj a, b =>
    match b with
    | obj members => a.length == members.length && sameMembers a members
    | _ => false
  | a, b => scalarEqual a b

def sameItems : List Json → List Json → Bool
  | [], [] => true
  | a :: as, b :: bs => same a b && sameItems as bs
  | _, _ => false

/-- Every member of the first list has an equal member of that name in the second. -/
def sameMembers : List (String × Json) → List (String × Json) → Bool
  | [], _ => true
  | (key, value) :: rest, members =>
    (match members.lookup key with
      | some other => same value other
      | none => false) && sameMembers rest members

end

mutual

/-- How many values a value consists of, itself included. -/
def size : Json → Nat
  | arr items => 1 + sizeItems items
  | obj members => 1 + sizeMembers members
  | _ => 1

def sizeItems : List Json → Nat
  | [] => 0
  | item :: rest => item.size + sizeItems rest

def sizeMembers : List (String × Json) → Nat
  | [] => 0
  | (_, value) :: rest => value.size + sizeMembers rest

end

mutual

/-- How deeply arrays and objects are nested in a value. -/
def depth : Json → Nat
  | .arr items => 1 + depthItems items
  | .obj members => 1 + depthMembers members
  | _ => 0

def depthItems : List Json → Nat
  | [] => 0
  | item :: rest => max item.depth (depthItems rest)

def depthMembers : List (String × Json) → Nat
  | [] => 0
  | (_, value) :: rest => max value.depth (depthMembers rest)

end

end Json

end SchemaModules
