import Automation.Yaml.Token.Scan
/-! The events of a document text: nodes in order, collections by their start and end. The
grammar is a stack of goals; the goal on top reads tokens, reports events and may put
other goals in its place. A node without content is an empty plain scalar. -/
namespace Automation.Yaml

structure Properties where
  anchor : Option String := none
  tag : Option String := none
  deriving DecidableEq, Repr

inductive NodeEvent where
  | documentStart
  | documentEnd
  | streamEnd
  | scalar (properties : Properties) (text : String) (style : ScalarStyle)
  | sequenceStart (properties : Properties)
  | sequenceEnd
  | mappingStart (properties : Properties)
  | mappingEnd
  | alias (name : String)
  deriving DecidableEq, Repr

namespace NodeEvent

def empty : NodeEvent := scalar {} "" .plain

inductive Goal where
  | document (first : Bool)
  | documentEnd
  /- A node; `block` if it may be a block collection, `compact` if it may be a sequence
  without indentation of its own. -/
  | node (block compact : Bool)
  | optional (stops : List Token) (block compact : Bool)
  | blockSequence
  | compactSequence
  | blockMapping
  | blockValue
  | flowSequence (first : Bool)
  | pairKey
  | pairValue
  | pairEnd
  | flowMapping (first : Bool)
  | flowValue
  | report (event : NodeEvent)

/- What a step of the grammar leads to: the tokens ahead, the goals, the handles of tags,
and the event reported, if any. -/
structure Reader where
  tokens : List Token
  goals : List Goal
  handles : List (String × String)
  event : Option NodeEvent := none

def commonHandles : List (String × String) := [("!", "!"), ("!!", "tag:yaml.org,2002:")]

def readDirectives : List Token → Bool → List (String × String) →
    Option (List Token × List (String × String))
  | .versionDirective major minor :: rest, versioned, handles =>
    if versioned || major != 1 || (minor != 1 && minor != 2) then none
    else readDirectives rest true handles
  | .tagDirective handle start :: rest, versioned, handles =>
    if handles.any fun h => h.1 == handle then none
    else readDirectives rest versioned (handles ++ [(handle, start)])
  | tokens, _, handles =>
    some (tokens, handles ++ commonHandles.filter fun h => !handles.any fun g => g.1 == h.1)

def skipDocumentEnds : List Token → List Token
  | .documentEnd :: rest => skipDocumentEnds rest
  | tokens => tokens

def resolveTag (handles : List (String × String)) (handle suffix : String) : Option String :=
  if handle.isEmpty then some suffix
  else (handles.find? fun h => h.1 == handle).map fun h => h.2 ++ suffix

def readProperties (handles : List (String × String)) :
    List Token → Option (Properties × List Token)
  | .anchor name :: .tag handle suffix :: rest =>
    (resolveTag handles handle suffix).map fun tag => (⟨some name, some tag⟩, rest)
  | .tag handle suffix :: .anchor name :: rest =>
    (resolveTag handles handle suffix).map fun tag => (⟨some name, some tag⟩, rest)
  | .anchor name :: rest => some (⟨some name, none⟩, rest)
  | .tag handle suffix :: rest =>
    (resolveTag handles handle suffix).map fun tag => (⟨none, some tag⟩, rest)
  | tokens => some ({}, tokens)

def readNode (block compact : Bool) (r : Reader) : Option Reader :=
  let reports (tokens : List Token) (event : NodeEvent) (goals : List Goal) : Option Reader :=
    some { r with tokens, goals := goals ++ r.goals, event := some event }
  match r.tokens with
  | .alias name :: rest => reports rest (.alias name) []
  | tokens => do
    let (properties, tokens) ← readProperties r.handles tokens
    match tokens with
    | [] => none
    | token :: rest =>
      if compact && token == .blockEntry then
        reports tokens (.sequenceStart properties) [.compactSequence]
      else match token with
        | .scalar text style => reports rest (.scalar properties text style) []
        | .flowSequenceStart => reports rest (.sequenceStart properties) [.flowSequence true]
        | .flowMappingStart => reports rest (.mappingStart properties) [.flowMapping true]
        | .blockSequenceStart =>
          if block then reports rest (.sequenceStart properties) [.blockSequence]
          else bare properties tokens
        | .blockMappingStart =>
          if block then reports rest (.mappingStart properties) [.blockMapping]
          else bare properties tokens
        | _ => bare properties tokens
where
  bare (properties : Properties) (tokens : List Token) : Option Reader :=
    if properties.anchor.isNone && properties.tag.isNone then none
    else some { r with tokens, event := some (.scalar properties "" .plain) }

def step (goal : Goal) (r : Reader) : Option Reader :=
  let goes (tokens : List Token) (goals : List Goal) : Option Reader :=
    some { r with tokens, goals := goals ++ r.goals }
  let reports (tokens : List Token) (event : NodeEvent) (goals : List Goal) : Option Reader :=
    some { r with tokens, goals := goals ++ r.goals, event := some event }
  match goal with
  | .document first =>
    let tokens := if first then r.tokens else skipDocumentEnds r.tokens
    match tokens with
    | [] => none
    | .streamEnd :: rest => some ⟨rest, [], [], some .streamEnd⟩
    | token :: _ => do
      let (later, handles) ← readDirectives tokens false []
      let marked := match token with
        | .versionDirective .. | .tagDirective .. | .documentStart => true
        | _ => !first
      if marked then
        match later with
        | .documentStart :: rest =>
          let stops (t : Token) : Bool := match t with
            | .versionDirective .. | .tagDirective .. | .documentStart | .documentEnd
            | .streamEnd => true
            | _ => false
          let content := match rest with
            | t :: _ => if stops t then Goal.report empty else .node true false
            | [] => .node true false
          some ⟨rest, content :: .documentEnd :: r.goals, handles, some .documentStart⟩
        | _ => none
      else some ⟨tokens, .node true false :: .documentEnd :: r.goals, handles, some .documentStart⟩
  | .documentEnd =>
    match r.tokens with
    | [] => none
    | .documentEnd :: rest => reports rest .documentEnd [.document false]
    | tokens => reports tokens .documentEnd [.document false]
  | .node block compact => readNode block compact r
  | .optional stops block compact =>
    match r.tokens with
    | [] => none
    | token :: _ =>
      if stops.contains token then reports r.tokens empty []
      else readNode block compact r
  | .blockSequence =>
    match r.tokens with
    | .blockEntry :: rest =>
      goes rest [.optional [.blockEntry, .blockEnd] true false, .blockSequence]
    | .blockEnd :: rest => reports rest .sequenceEnd []
    | _ => none
  | .compactSequence =>
    match r.tokens with
    | [] => none
    | .blockEntry :: rest =>
      goes rest [.optional [.blockEntry, .key, .value, .blockEnd] true false, .compactSequence]
    | tokens => reports tokens .sequenceEnd []
  | .blockMapping =>
    match r.tokens with
    | .key :: rest => goes rest [.optional [.key, .value, .blockEnd] true true, .blockValue]
    | .blockEnd :: rest => reports rest .mappingEnd []
    | _ => none
  | .blockValue =>
    match r.tokens with
    | [] => none
    | .value :: rest => goes rest [.optional [.key, .value, .blockEnd] true true, .blockMapping]
    | tokens => reports tokens empty [.blockMapping]
  | .flowSequence first =>
    let entry (tokens : List Token) : Option Reader :=
      match tokens with
      | [] => none
      | .key :: rest => reports rest (.mappingStart {}) [.pairKey, .flowSequence false]
      | .flowSequenceEnd :: rest => reports rest .sequenceEnd []
      | tokens => goes tokens [.node false false, .flowSequence false]
    match r.tokens with
    | .flowSequenceEnd :: rest => reports rest .sequenceEnd []
    | .flowEntry :: rest => if first then none else entry rest
    | tokens => if first then entry tokens else none
  | .pairKey =>
    match r.tokens with
    | [] => none
    | .value :: rest | .flowEntry :: rest | .flowSequenceEnd :: rest =>
      reports rest empty [.pairValue]
    | tokens => goes tokens [.node false false, .pairValue]
  | .pairValue =>
    match r.tokens with
    | [] => none
    | .value :: rest =>
      goes rest [.optional [.flowEntry, .flowSequenceEnd] false false, .pairEnd]
    | tokens => reports tokens empty [.pairEnd]
  | .pairEnd => reports r.tokens .mappingEnd []
  | .flowMapping first =>
    let entry (tokens : List Token) : Option Reader :=
      match tokens with
      | [] => none
      | .key :: rest =>
        goes rest [.optional [.value, .flowEntry, .flowMappingEnd] false false, .flowValue]
      | .flowMappingEnd :: rest => reports rest .mappingEnd []
      | tokens => goes tokens [.node false false, .report empty, .flowMapping false]
    match r.tokens with
    | .flowMappingEnd :: rest => reports rest .mappingEnd []
    | .flowEntry :: rest => if first then none else entry rest
    | tokens => if first then entry tokens else none
  | .flowValue =>
    match r.tokens with
    | [] => none
    | .value :: rest =>
      goes rest [.optional [.flowEntry, .flowMappingEnd] false false, .flowMapping false]
    | tokens => reports tokens empty [.flowMapping false]
  | .report event => reports r.tokens event []

def run : Nat → Reader → List NodeEvent
  | 0, _ => []
  | fuel + 1, r =>
    match r.goals with
    | [] => []
    | goal :: goals =>
      match step goal { r with goals, event := none } with
      | none => []
      | some next => next.event.toList ++ run fuel next

def ofTokens (tokens : List Token) : List NodeEvent :=
  run (6 * tokens.length + 10) ⟨tokens, [.document true], [], none⟩

end NodeEvent
end Automation.Yaml
