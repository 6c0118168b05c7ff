import Automation.Json
/-! Documents: values with a type of their own, sequences, mappings in order of their
entries, and values under a tag that the application has to make sense of. -/
namespace Automation.Yaml

inductive Node where
  | null
  | bool (b : Bool)
  | int (n : Int)
  | double (d : Double)
  | str (s : String)
  | seq (items : List Node)
  | map (entries : List (Node × Node))
  | tagged (tag : String) (value : Node)
  deriving Inhabited, Repr

namespace Node

def sameNumber (a b : Double) : Bool := (a.isNaN && b.isNaN) || a.same b

mutual
/- Equality of keys. Mappings are equal whatever the order of their entries. -/
def same : Node → Node → Bool
  | null, null => true
  | bool a, bool b => a == b
  | int a, int b => a == b
  | double a, double b => sameNumber a b
  | str a, str b => a == b
  | seq as, seq bs => sameItems as bs
  | map as, map bs => as.length == bs.length && within as bs
  | tagged t a, tagged u b => t == u && same a b
  | _, _ => false

def sameItems : List Node → List Node → Bool
  | [], [] => true
  | a :: as, b :: bs => same a b && sameItems as bs
  | _, _ => false

def within : List (Node × Node) → List (Node × Node) → Bool
  | [], _ => true
  | (k, v) :: rest, bs => (bs.any fun (j, w) => same k j && same v w) && within rest bs
end

mutual
def tagFree : Node → Bool
  | seq items => tagFreeItems items
  | map entries => tagFreeEntries entries
  | tagged .. => false
  | _ => true

def tagFreeItems : List Node → Bool
  | [] => true
  | a :: rest => tagFree a && tagFreeItems rest

def tagFreeEntries : List (Node × Node) → Bool
  | [] => true
  | (k, v) :: rest => tagFree k && tagFree v && tagFreeEntries rest
end

end Node

inductive Fault where
  | misplaced
  | manyDocuments
  | tooManyRepetitions
  deriving DecidableEq, Repr

def Fault.message : Fault → String
  | misplaced => "malformed document"
  | manyDocuments => "deserializing from YAML containing more than one document is not supported"
  | tooManyRepetitions => "repetition limit exceeded"

end Automation.Yaml
