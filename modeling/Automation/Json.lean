import Automation.Double
/-! JSON values. Integers and floating point numbers are kept apart: a number written
without fraction and exponent that fits 64 bits, signed or unsigned, is an integer. The
fields of an object are listed in ascending order of their names, each name once;
`Json.record` brings any list of fields into that form, the last of equal names winning.
There are two comparisons: identity of structure, decided by `Json.identical`, and
equality of content, `Json.same`, under which the two floating point zeros are equal. -/
namespace Automation

inductive Json where
  | null
  | bool (b : Bool)
  | int (n : Int)
  | double (d : Double)
  | str (s : String)
  | arr (items : List Json)
  | obj (fields : List (String × Json))
  deriving Inhabited, Repr

namespace Json

mutual
def agree (numbers : Double → Double → Bool) : Json → Json → Bool
  | null, null => true
  | bool a, bool b => a == b
  | int a, int b => a == b
  | double a, double b => numbers a b
  | str a, str b => a == b
  | arr as, arr bs => agreeItems numbers as bs
  | obj as, obj bs => agreeFields numbers as bs
  | _, _ => false

def agreeItems (numbers : Double → Double → Bool) : List Json → List Json → Bool
  | [], [] => true
  | a :: as, b :: bs => agree numbers a b && agreeItems numbers as bs
  | _, _ => false

def agreeFields (numbers : Double → Double → Bool) :
    List (String × Json) → List (String × Json) → Bool
  | [], [] => true
  | (k, a) :: as, (j, b) :: bs => k == j && agree numbers a b && agreeFields numbers as bs
  | _, _ => false
end

def identical : Json → Json → Bool := agree fun a b => decide (a = b)

def same : Json → Json → Bool := agree Double.same

mutual
theorem agreeSelf : (a : Json) → agree (fun x y => decide (x = y)) a a = true
  | null | bool _ | int _ | double _ | str _ => by simp [agree]
  | arr as => by simpa [agree] using agreeItemsSelf as
  | obj as => by simpa [agree] using agreeFieldsSelf as

theorem agreeItemsSelf : (as : List Json) → agreeItems (fun x y => decide (x = y)) as as = true
  | [] => by simp [agreeItems]
  | a :: as => by simp [agreeItems, agreeSelf a, agreeItemsSelf as]

theorem agreeFieldsSelf : (as : List (String × Json)) →
    agreeFields (fun x y => decide (x = y)) as as = true
  | [] => by simp [agreeFields]
  | (_, a) :: as => by simp [agreeFields, agreeSelf a, agreeFieldsSelf as]
end

mutual
theorem eqOfAgree : (a b : Json) → agree (fun x y => decide (x = y)) a b = true → a = b
  | null, b, h => by cases b <;> simp_all [agree]
  | bool _, b, h => by cases b <;> simp_all [agree]
  | int _, b, h => by cases b <;> simp_all [agree]
  | double _, b, h => by cases b <;> simp_all [agree]
  | str _, b, h => by cases b <;> simp_all [agree]
  | arr as, b, h => by
    cases b with
    | arr bs => rw [eqOfAgreeItems as bs (by simpa [agree] using h)]
    | _ => simp [agree] at h
  | obj as, b, h => by
    cases b with
    | obj bs => rw [eqOfAgreeFields as bs (by simpa [agree] using h)]
    | _ => simp [agree] at h

theorem eqOfAgreeItems : (as bs : List Json) →
    agreeItems (fun x y => decide (x = y)) as bs = true → as = bs
  | [], bs, h => by cases bs <;> simp_all [agreeItems]
  | a :: as, bs, h => by
    cases bs with
    | nil => simp [agreeItems] at h
    | cons b bs =>
      simp only [agreeItems, Bool.and_eq_true] at h
      rw [eqOfAgree a b h.1, eqOfAgreeItems as bs h.2]

theorem eqOfAgreeFields : (as bs : List (String × Json)) →
    agreeFields (fun x y => decide (x = y)) as bs = true → as = bs
  | [], bs, h => by cases bs <;> simp_all [agreeFields]
  | (k, a) :: as, bs, h => by
    cases bs with
    | nil => simp [agreeFields] at h
    | cons field bs =>
      obtain ⟨j, b⟩ := field
      simp only [agreeFields, Bool.and_eq_true, beq_iff_eq] at h
      rw [h.1.1, eqOfAgree a b h.1.2, eqOfAgreeFields as bs h.2]
end

theorem identicalIff (a b : Json) : identical a b = true ↔ a = b :=
  ⟨eqOfAgree a b, fun h => h ▸ agreeSelf a⟩

instance : DecidableEq Json := fun a b => decidable_of_iff _ (identicalIff a b)

def isNull : Json → Bool
  | null => true
  | _ => false

def field? (name : String) : Json → Option Json
  | obj fields => (fields.find? fun f => f.1 == name).map Prod.snd
  | _ => none

def text? : Json → Option String
  | str s => some s
  | _ => none

/- Order of names by their bytes. UTF-8 keeps the order of code points, so this is the
order of the texts as lists of characters. -/
def nameBefore (a b : String) : Bool := decide (a < b)

def placeField (name : String) (value : Json) : List (String × Json) → List (String × Json)
  | [] => [(name, value)]
  | (k, v) :: rest =>
    if nameBefore name k then (name, value) :: (k, v) :: rest
    else if name = k then (name, value) :: rest
    else (k, v) :: placeField name value rest

def record (fields : List (String × Json)) : Json :=
  obj (fields.foldl (fun placed f => placeField f.1 f.2 placed) [])

def int64? : Json → Option Int
  | int n => if -Int.pow 2 63 ≤ n ∧ n < Int.pow 2 63 then some n else none
  | _ => none

end Json
end Automation
