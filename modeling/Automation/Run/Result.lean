import Automation.Applet.ApplyError
import Automation.Applet.Payload
import Automation.Pool
/-! Results of applets. Results that carry something have a body on loan from a pool; the
two that carry nothing have none. A payload that is null is no payload. -/
namespace Automation

structure ResultBody where
  successful : Bool := false
  returned : Option Payload := none
  actual : Option Json := none
  cause : Option ApplyError := none
  deriving DecidableEq, Repr

instance : Recyclable ResultBody where
  default := {}
  restore b := { b with successful := false, returned := none, actual := none, cause := none }

inductive AppletResult where
  | empty (successful : Bool)
  | pooled (body : ResultBody)
  deriving DecidableEq, Repr

namespace AppletResult

abbrev Bodies := Pool ResultBody

def obtain (successful : Bool) (returned : Option Payload) (actual : Option Json)
    (cause : Option ApplyError) (bodies : Bodies) : AppletResult × Bodies :=
  let (body, bodies) := bodies.take
  (pooled { body with successful, returned, actual, cause }, bodies)

def release : AppletResult → Bodies → Bodies
  | empty _, bodies => bodies
  | pooled body, bodies => bodies.give body

def releaseAll (results : List AppletResult) (bodies : Bodies) : Bodies :=
  results.foldl (fun bodies r => r.release bodies) bodies

def succeeded (returned : Json) (bodies : Bodies) : AppletResult × Bodies :=
  if returned.isNull then (empty true, bodies)
  else obtain true (some (.plain returned)) none none bodies

def succeededWith (returned : Payload) (bodies : Bodies) : AppletResult × Bodies :=
  obtain true (some returned) none none bodies

def failed (actual : Json) (bodies : Bodies) : AppletResult × Bodies :=
  if actual.isNull then (empty false, bodies) else obtain false none (some actual) none bodies

def failedBy (cause : ApplyError) (bodies : Bodies) : AppletResult × Bodies :=
  obtain false none none (some cause) bodies

def isSuccessful : AppletResult → Bool
  | empty successful => successful
  | pooled body => body.successful

def isEmpty : AppletResult → Bool
  | empty _ => true
  | pooled _ => false

def returned? : AppletResult → Option Payload
  | empty _ => none
  | pooled body => body.returned

def actual? : AppletResult → Option Json
  | empty _ => none
  | pooled body => body.actual

def cause? : AppletResult → Option ApplyError
  | empty _ => none
  | pooled body => body.cause

def published? (r : AppletResult) : Option Payload := if r.isSuccessful then r.returned? else none

def value? (r : AppletResult) : Option Json := r.returned?.bind fun p => p.slot? 0

open Text in
def shown (r : AppletResult) : String :=
  Shown.record "AppletResult"
    [("successful", Shown.truth r.isSuccessful),
     ("returned", Shown.option (r.returned?.map Payload.shown)),
     ("actual", Shown.option (r.actual?.map Json.shown)),
     ("cause", Shown.option (r.cause?.map ApplyError.shown))]

end AppletResult
end Automation
