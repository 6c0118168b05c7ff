import Automation.Handle
import Automation.RunError
import Automation.Registry
import Automation.Pattern.Search
import Automation.Text.Shown
import Automation.Pattern.Reader
/-! What an executor does, as a script. A script ends with a value, raises the alarm, gives
up control for a while or for ever, halts runs, or asks for a value that is kept beyond
it: a global, or an argument cached for an applet identity. Whoever carries the script out
answers its requests. -/
namespace Automation

inductive Stored where
  | text
  | number
  | patterns
  deriving DecidableEq, Repr

namespace Stored

abbrev Compiled := Except Pattern.Refusal Pattern

abbrev Value : Stored → Type
  | text => String
  | number => Int
  | patterns => Table String Compiled

end Stored

abbrev Globals := Registry UInt64 Stored.Value

abbrev Arguments := Registry AppletId Stored.Value

inductive Script (α : Type) where
  | done (result : α)
  | panic
  | yield (next : Script α)
  | pend
  | cancel (handle : Handle) (next : Script α)
  | haltAll (next : Nat → Script α)
  | global (key : UInt64) (type : Stored) (init : Unit → type.Value)
      (next : Except RunError type.Value → Script α)
  | argument (id : AppletId) (type : Stored) (init : Unit → type.Value)
      (next : Except RunError type.Value → Script α)
  | pattern (id : AppletId) (text : String)
      (next : Except RunError Stored.Compiled → Script α)

namespace Script

def bind {α β : Type} : Script α → (α → Script β) → Script β
  | done a, f => f a
  | panic, _ => panic
  | yield next, f => yield (next.bind f)
  | pend, _ => pend
  | cancel h next, f => cancel h (next.bind f)
  | haltAll next, f => haltAll fun n => (next n).bind f
  | global k t init next, f => global k t init fun r => (next r).bind f
  | argument i t init next, f => argument i t init fun r => (next r).bind f
  | pattern i text next, f => pattern i text fun r => (next r).bind f

instance : Monad Script where
  pure := done
  bind := bind

def yields {α : Type} (times : Nat) (next : Script α) : Script α :=
  match times with
  | 0 => next
  | n + 1 => yield (yields n next)

end Script

def Globals.obtain (gs : Globals) (key : UInt64) (type : Stored) (init : Unit → type.Value) :
    Except RunError type.Value × Globals :=
  match gs.getOrInit key type init with
  | (.ok v, gs) => (.ok v, gs)
  | (.error _, gs) => (.error (.globalTypeMismatch key), gs)

def Globals.read (gs : Globals) (key : UInt64) (type : Stored) : Except RunError type.Value :=
  match gs.get key type with
  | .ok v => .ok v
  | .error .missing => .error (.globalMissing key)
  | .error .otherType => .error (.globalTypeMismatch key)

open Text in
def Globals.shown (gs : Globals) : String :=
  Shown.record "EventScope" [("globals", String.ofList (decimal gs.size))]

namespace Arguments

def obtain (args : Arguments) (id : AppletId) (type : Stored) (init : Unit → type.Value) :
    Except RunError type.Value × Arguments :=
  match args.getOrInit id type init with
  | (.ok v, args) => (.ok v, args)
  | (.error _, args) => (.error (.argumentTypeMismatch id), args)

def pattern (args : Arguments) (id : AppletId) (text : String) :
    Except RunError Stored.Compiled × Arguments :=
  match args.obtain id .patterns fun _ => Table.empty with
  | (.error e, args) => (.error e, args)
  | (.ok table, args) =>
    match table.get? text with
    | some compiled => (.ok compiled, args)
    | none =>
      let compiled := Pattern.read text
      (.ok compiled, ⟨args.cells.insert id ⟨.patterns, table.insert text compiled⟩⟩)

end Arguments
end Automation
