import Automation.Pattern.Class
/-! Reading patterns. Branches are separated by bars and made of pieces: characters,
classes, assertions, groups, and repetitions of the piece before. Flags in effect change
inside a group only. Nothing follows from how a repetition is marked as lazy, since only
the presence of a match is asked for. A pattern is refused when it is malformed, or when
its machine would be too large. -/
namespace Automation.Pattern
open Automation.Text (isBlank readDigits? isDecimal)
open Automation.Unicode (category)

inductive Refusal where
  | malformed
  | tooLarge
  deriving DecidableEq, Repr

def Refusal.message : Refusal → String
  | malformed => "regex parse error"
  | tooLarge => "Compiled regex exceeds size limit of 10485760 bytes."

inductive Piece where
  | node (p : Pattern)
  | flags

def readCount (cs : List Char) : Option Nat × List Char :=
  let cs := cs.dropWhile isBlank
  let ds := cs.takeWhile isDecimal
  let behind := (cs.drop ds.length).dropWhile isBlank
  ((readDigits? 10 ds).bind fun n => if n < Nat.pow 2 32 then some n else none, behind)

def readBounds (st : State) (cs : List Char) : Option ((Nat × Option Nat) × List Char) := do
  let (least, cs) := readCount (st.skipped cs)
  match cs with
  | ',' :: rest =>
    let least ← least
    match st.skipped rest with
    | '\x7d' :: behind => some ((least, none), behind)
    | rest =>
      let (most, behind) := readCount rest
      let most ← most
      match behind with
      | '\x7d' :: behind => if least ≤ most then some ((least, some most), behind) else none
      | _ => none
  | '\x7d' :: behind =>
    let least ← least
    some ((least, some least), behind)
  | _ => none

def skipLazy : List Char → List Char
  | '?' :: rest => rest
  | cs => cs

def repeatLast (least : Nat) (most : Option Nat) : List Piece → Option (List Piece)
  | .node p :: done => some (.node (.repeated least most p) :: done)
  | _ => none

def joined (pieces : List Piece) : Pattern :=
  pieces.foldl (fun acc piece => match piece with
    | .node p => match acc with
      | .empty => p
      | acc => .seq p acc
    | .flags => acc) .empty

def applyFlag (on : Bool) (c : Char) (f : Flags) : Option Flags :=
  if c == 'i' then some { f with caseless := on }
  else if c == 'm' then some { f with multiline := on }
  else if c == 's' then some { f with dotAll := on }
  else if c == 'u' then some { f with unicode := on }
  else if c == 'R' then some { f with carriage := on }
  else if c == 'x' then some { f with verbose := on }
  else if c == 'U' then some f
  else none

def readFlags (seen : List Char) (on : Bool) (f : Flags) : List Char → Option (Flags × List Char)
  | [] => none
  | c :: rest =>
    if c == ':' || c == ')' then
      if seen.head? == some '-' then none else some (f, c :: rest)
    else if seen.contains c then none
    else if c == '-' then readFlags (c :: seen) false f rest
    else match applyFlag on c f with
      | some f => readFlags (c :: seen) on f rest
      | none => none

def isNameStart (c : Char) : Bool :=
  c == '_' || c.isAlpha || (127 < c.toNat && (category c).isLetter)

def isNameRest (c : Char) : Bool :=
  isNameStart c || isDecimal c || c == '.' || c == '[' || c == ']' ||
    (127 < c.toNat &&
      (category c == .decimalNumber || category c == .letterNumber || category c == .otherNumber))

def readName (st : State) (cs : List Char) : Option (State × List Char) :=
  let name := cs.takeWhile (· != '>')
  match cs.drop name.length, name with
  | _ :: behind, first :: more =>
    if isNameStart first && more.all isNameRest && !st.names.contains name then
      some ({ st with names := name :: st.names }, behind)
    else none
  | _, _ => none

def startsAny (marks : List String) (cs : List Char) : Bool :=
  marks.any fun m => m.toList.isPrefixOf cs

mutual
def readBranches (fuel : Nat) (st : State) : Option (Pattern × State) :=
  match fuel with
  | 0 => none
  | fuel + 1 =>
    match readPieces fuel st [] with
    | none => none
    | some (pieces, st) =>
      match st.rest with
      | '|' :: rest =>
        (readBranches fuel { st with rest := rest }).map fun (q, st) => (.alt (joined pieces) q, st)
      | _ => some (joined pieces, st)

def readPieces (fuel : Nat) (st : State) (done : List Piece) : Option (List Piece × State) :=
  match fuel with
  | 0 => none
  | fuel + 1 =>
    let st := st.skip
    match st.rest with
    | [] => some (done, st)
    | ')' :: _ => some (done, st)
    | '|' :: _ => some (done, st)
    | '(' :: rest =>
      match readGroup fuel { st with rest := st.skipped rest } with
      | some (piece, st) => readPieces fuel st (piece :: done)
      | none => none
    | '[' :: rest =>
      match readClass (rest.length * 2 + 4) st rest with
      | some (set, rest) => readPieces fuel { st with rest := rest } (.node (.one set) :: done)
      | none => none
    | '?' :: rest => readAgain fuel st 0 (some 1) rest done
    | '*' :: rest => readAgain fuel st 0 none rest done
    | '+' :: rest => readAgain fuel st 1 none rest done
    | '\x7b' :: rest =>
      match readBounds st rest with
      | some ((least, most), rest) => readAgain fuel st least most (st.skipped rest) done
      | none => none
    | '\\' :: rest =>
      match readEscape st rest with
      | some (.char c, rest) =>
        readPieces fuel { st with rest := rest } (.node (st.charPattern c) :: done)
      | some (.set s, rest) => readPieces fuel { st with rest := rest } (.node (.one s) :: done)
      | some (.place a, rest) => readPieces fuel { st with rest := rest } (.node (.at a) :: done)
      | none => none
    | '.' :: rest =>
      if !st.flags.unicode then none
      else
        let excluded := if st.flags.dotAll then []
          else if st.flags.carriage then [(10, 10), (13, 13)] else [(10, 10)]
        let set := (CharSet.ofRanges excluded).complement
        readPieces fuel { st with rest := rest } (.node (.one set) :: done)
    | '^' :: rest =>
      let a := if st.flags.multiline then Assertion.lineStart st.flags.carriage else .textStart
      readPieces fuel { st with rest := rest } (.node (.at a) :: done)
    | '$' :: rest =>
      let a := if st.flags.multiline then Assertion.lineEnd st.flags.carriage else .textEnd
      readPieces fuel { st with rest := rest } (.node (.at a) :: done)
    | c :: rest => readPieces fuel { st with rest := rest } (.node (st.charPattern c) :: done)

def readAgain (fuel : Nat) (st : State) (least : Nat) (most : Option Nat) (rest : List Char)
    (done : List Piece) : Option (List Piece × State) :=
  match fuel with
  | 0 => none
  | fuel + 1 =>
    match repeatLast least most done with
    | some done => readPieces fuel { st with rest := skipLazy rest } done
    | none => none

def readGroup (fuel : Nat) (st : State) : Option (Piece × State) :=
  match fuel with
  | 0 => none
  | fuel + 1 =>
    let inside (inner : State) (cs : List Char) : Option (Piece × State) :=
      if depthLimit ≤ st.depth then none
      else match readBranches fuel { inner with rest := cs, depth := st.depth + 1 } with
        | some (p, after) =>
          match after.rest with
          | ')' :: rest =>
            some (.node p, { st with rest := rest, names := after.names })
          | _ => none
        | none => none
    let cs := st.rest
    if startsAny ["?=", "?!", "?<=", "?<!"] cs then none
    else if startsAny ["?P<"] cs then
      match readName st (cs.drop 3) with
      | some (named, cs) => inside named cs
      | none => none
    else if startsAny ["?<"] cs then
      match readName st (cs.drop 2) with
      | some (named, cs) => inside named cs
      | none => none
    else match cs with
      | '?' :: rest =>
        match readFlags [] true st.flags rest with
        | some (flags, ')' :: behind) =>
          if rest.head? == some ')' then none
          else some (.flags, { st with rest := behind, flags := flags })
        | some (flags, ':' :: behind) => inside { st with flags := flags } behind
        | _ => none
      | cs => inside st cs
end

def weightLimit : Nat := 327680

def read (text : String) : Except Refusal Pattern :=
  let cs := text.toList
  match readBranches (4 * cs.length + 8) ⟨cs, {}, [], 0⟩ with
  | some (p, st) =>
    if !st.rest.isEmpty then .error .malformed
    else if weightLimit < p.weight then .error .tooLarge
    else .ok p
  | none => .error .malformed

end Automation.Pattern
