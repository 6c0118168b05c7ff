import Automation.Yaml.Event
import Automation.Yaml.Node.Plain
/-! From events to documents. Anchors are numbered in order of appearance, and an alias
repeats the node at the place last noted for the number of its anchor. Documents nest to a
limited depth and repeat nodes a limited number of times; the keys of a mapping differ. -/
namespace Automation.Yaml

def depthLimit : Nat := 128

def repetitionRate : Nat := 100

structure Linked where
  events : List (NodeEvent ⊕ Nat) := []
  numbers : List (String × Nat) := []
  places : List (Nat × Nat) := []

namespace Linked

def number? (l : Linked) (name : String) : Option Nat :=
  (l.numbers.find? fun a => a.1 == name).map Prod.snd

def note (l : Linked) (name : String) : Linked :=
  let n := l.numbers.length
  { l with
    numbers := (name, n) :: l.numbers.filter fun a => a.1 != name
    places := (n, l.events.length) :: l.places }

def anchorOf : NodeEvent → Option String
  | .scalar p _ _ | .sequenceStart p | .mappingStart p => p.anchor
  | _ => none

/- Links the events of the first document; those that follow are left. A name that no
anchor has ends the document early, and nothing is left. -/
def link : List NodeEvent → Linked → Linked × List NodeEvent
  | [], l => (l, [])
  | .documentStart :: rest, l => link rest l
  | .documentEnd :: rest, l => (l, .documentEnd :: rest)
  | .streamEnd :: rest, l => (l, .streamEnd :: rest)
  | .alias name :: rest, l =>
    match l.number? name with
    | some n => link rest { l with events := l.events ++ [.inr n] }
    | none => (l, [])
  | event :: rest, l =>
    let l := match anchorOf event with
      | some name => l.note name
      | none => l
    link rest { l with events := l.events ++ [.inl event] }

def place? (l : Linked) (n : Nat) : Option Nat :=
  (l.places.find? fun p => p.1 == n).map Prod.snd

end Linked

structure Reached where
  place : Nat
  repeats : Nat

namespace Node

def readItems (events : Array (NodeEvent ⊕ Nat))
    (node : Reached → Except Fault (Node × Reached)) :
    Nat → Reached → List Node → Except Fault (List Node × Reached)
  | 0, _, _ => .error .misplaced
  | fuel + 1, at_, items =>
    match events[at_.place]? with
    | some (.inl .sequenceEnd) => .ok (items.reverse, { at_ with place := at_.place + 1 })
    | _ => do
      let (item, at_) ← node at_
      readItems events node fuel at_ (item :: items)

def readEntries (events : Array (NodeEvent ⊕ Nat))
    (node : Reached → Except Fault (Node × Reached)) :
    Nat → Reached → List (Node × Node) → Except Fault (List (Node × Node) × Reached)
  | 0, _, _ => .error .misplaced
  | fuel + 1, at_, entries =>
    match events[at_.place]? with
    | some (.inl .mappingEnd) => .ok (entries.reverse, { at_ with place := at_.place + 1 })
    | _ => do
      let (key, at_) ← node at_
      if entries.any fun e => e.1.same key then throw .misplaced
      let (value, at_) ← node at_
      readEntries events node fuel at_ ((key, value) :: entries)

def applicationTag? (p : Properties) : Option String :=
  p.tag.bind fun tag => match tag.toList with
    | ['!'] => some "!"
    | '!' :: name => some (String.ofList name)
    | _ => none

def underTag (p : Properties) (value : Node) : Node :=
  match applicationTag? p with
  | some tag => tagged tag value
  | none => value

def ofScalar (p : Properties) (text : String) (style : ScalarStyle) : Except Fault Node :=
  match applicationTag? p, p.tag with
  | none, some tag => ofTyped tag text
  | application, _ => do
    let value ← if style == .plain then ofPlain text else .ok (str text)
    return match application with
      | some tag => tagged tag value
      | none => value

def readNode (l : Linked) (events : Array (NodeEvent ⊕ Nat)) :
    (depth : Nat) → Reached → Except Fault (Node × Reached)
  | depth, at_ => do
    let (start, repeats, after) ← match events[at_.place]? with
      | some (.inr n) =>
        if repetitionRate * events.size < at_.repeats + 1 then
          throw .tooManyRepetitions
        else match l.place? n with
          | some start => pure (start, at_.repeats + 1, some (at_.place + 1))
          | none => throw .misplaced
      | _ => pure (at_.place, at_.repeats, none)
    let next := start + 1
    let done (node : Node) (reached : Reached) : Except Fault (Node × Reached) :=
      .ok (node, { reached with place := after.getD reached.place })
    match events[start]? with
    | some (.inl (.scalar p text style)) =>
      let node ← ofScalar p text style
      done node ⟨next, repeats⟩
    | some (.inl (.sequenceStart p)) =>
      match depth with
      | 0 => throw .misplaced
      | depth + 1 =>
        let (items, reached) ←
          readItems events (readNode l events depth) (events.size + 1) ⟨next, repeats⟩ []
        done (underTag p (seq items)) reached
    | some (.inl (.mappingStart p)) =>
      match depth with
      | 0 => throw .misplaced
      | depth + 1 =>
        let (entries, reached) ←
          readEntries events (readNode l events depth) (events.size + 1) ⟨next, repeats⟩ []
        done (underTag p (map entries)) reached
    | _ => throw .misplaced

def ofEvents (events : List NodeEvent) : Except Fault Node := do
  match events with
  | [.streamEnd] => return null
  | _ =>
    let (l, later) := Linked.link events {}
    let (node, _) ← readNode l l.events.toArray depthLimit ⟨0, 0⟩
    match later with
    | [] => throw .misplaced
    | [.streamEnd] => return node
    | [.documentEnd, .streamEnd] => return node
    | _ => throw .manyDocuments

def read (text : String) : Except Fault Node :=
  ofEvents (NodeEvent.ofTokens (Token.scan text.toList))

end Node
end Automation.Yaml
