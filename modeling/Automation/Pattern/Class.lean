import Automation.Pattern.Escape
/-! Classes in brackets: characters, ranges, sets by their names, classes within, and the
operations on sets between them. Where case does not count, a class is closed under it
before it is negated. -/
namespace Automation.Pattern
open Automation.Unicode (caseVariants)

def State.fold (st : State) (s : CharSet) : CharSet :=
  if !st.flags.caseless then s else if st.flags.unicode then s.folded else s.foldedAscii

def State.charPattern (st : State) (c : Char) : Pattern :=
  if !st.flags.caseless then .one (CharSet.one c)
  else if st.flags.unicode then
    .one (CharSet.ofRanges ((caseVariants c).map fun v => (v.toNat, v.toNat)))
  else .one (CharSet.one c).foldedAscii

def readAsciiName (cs : List Char) : Option (CharSet × List Char) :=
  match cs with
  | ':' :: rest =>
    let (negated, rest) := match rest with
      | '^' :: rest => (true, rest)
      | rest => (false, rest)
    let name := rest.takeWhile (· != ':')
    match rest.drop name.length with
    | ':' :: ']' :: behind =>
      (CharSet.asciiNamed? (String.ofList name)).map fun s =>
        (if negated then s.complement else s, behind)
    | _ => none
  | _ => none

inductive Operation where
  | inter | diff | symmDiff

def Operation.apply : Operation → CharSet → CharSet → CharSet
  | inter, a, b => a.inter b
  | diff, a, b => a.diff b
  | symmDiff, a, b => a.symmDiff b

def readMember (st : State) : List Char → Option (Escape × List Char)
  | '\\' :: rest => readEscape st rest
  | c :: rest => some (.char c, rest)
  | [] => none

def readRange (st : State) (cs : List Char) : Option (CharSet × List Char) := do
  let (first, rest) ← readMember st cs
  let rest := st.skipped rest
  let alone : Option (CharSet × List Char) := match first with
    | .char c => if !st.flags.unicode && 0x7F < c.toNat then none else some (CharSet.one c, rest)
    | .set s => some (s, rest)
    | .place _ => none
  match rest with
  | [] => none
  | '-' :: behind =>
    let next := (st.skipped behind).head?
    if next == some ']' || next == some '-' then alone
    else
      let (last, behind) ← readMember st (st.skipped behind)
      match first, last with
      | .char a, .char b =>
        if !st.flags.unicode && (0x7F < a.toNat || 0x7F < b.toNat) then none
        else if a.toNat ≤ b.toNat then some (⟨[(a.toNat, b.toNat)]⟩, behind)
        else none
      | _, _ => none
  | _ => alone

def leadingMembers (st : State) (cs : List Char) : CharSet × List Char :=
  let rec hyphens (fuel : Nat) (set : CharSet) (cs : List Char) : CharSet × List Char :=
    match fuel, cs with
    | fuel + 1, '-' :: rest => hyphens fuel (set.union (CharSet.one '-')) (st.skipped rest)
    | _, cs => (set, cs)
  match hyphens (cs.length + 1) .empty cs with
  | (set, ']' :: rest) => if set.ranges.isEmpty then (CharSet.one ']', rest) else (set, ']' :: rest)
  | (set, cs) => (set, cs)

mutual
def readClass (fuel : Nat) (st : State) (cs : List Char) : Option (CharSet × List Char) :=
  match fuel with
  | 0 => none
  | fuel + 1 =>
    if depthLimit < st.depth then none
    else
      let cs := st.skipped cs
      let (negated, cs) := match cs with
        | '^' :: rest => (true, st.skipped rest)
        | cs => (false, cs)
      let (set, cs) := leadingMembers st cs
      match readMembers fuel { st with depth := st.depth + 1 } none set cs with
      | none => none
      | some (set, behind) =>
        let set := st.fold set
        let set := if negated then set.complement else set
        if !st.flags.unicode && !set.isAscii then none else some (set, behind)

/- Members of a class; `pending` is what an operation read before has on its left. -/
def readMembers (fuel : Nat) (st : State) (pending : Option (Operation × CharSet)) (set : CharSet)
    (cs : List Char) : Option (CharSet × List Char) :=
  let finished : CharSet := match pending with
    | some (op, left) => op.apply (st.fold left) (st.fold set)
    | none => set
  match fuel with
  | 0 => none
  | fuel + 1 =>
    match st.skipped cs with
    | [] => none
    | ']' :: rest => some (finished, rest)
    | '&' :: '&' :: rest => readMembers fuel st (some (.inter, finished)) .empty rest
    | '-' :: '-' :: rest => readMembers fuel st (some (.diff, finished)) .empty rest
    | '~' :: '~' :: rest => readMembers fuel st (some (.symmDiff, finished)) .empty rest
    | '[' :: rest =>
      match readAsciiName rest with
      | some (s, rest) => readMembers fuel st pending (set.union s) rest
      | none =>
        match readClass fuel st rest with
        | some (s, rest) => readMembers fuel st pending (set.union s) rest
        | none => none
    | cs =>
      match readRange st cs with
      | some (s, rest) => readMembers fuel st pending (set.union s) rest
      | none => none
end

end Automation.Pattern
