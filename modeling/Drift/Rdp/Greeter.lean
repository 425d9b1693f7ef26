import Drift.Core.State
import Drift.Input.Event
import Drift.Input.Unicode

/-!
# The greeter typist

Types the stored Linux password at the greeter of a Remote Login session, once, some time after the
first click.
-/

namespace Drift.Rdp

open Input

def typeDelay : Duration := .fromMillis 1500

def enterScancode : UInt8 := 0x1C

structure GreeterTypist where
  armed : Bool
  due : Option Instant
  deriving DecidableEq

namespace GreeterTypist

def new : GreeterTypist := ⟨false, none⟩

def onGreeter (hasPassword : Bool) : GreeterTypist := ⟨hasPassword, none⟩

def disarm : GreeterTypist := ⟨false, none⟩

def isClick : InputEvent → Bool
  | .mouseButton .left false _ _ => true
  | _ => false

def onInput (t : GreeterTypist) (event : InputEvent) (now : Instant) : GreeterTypist :=
  if t.armed && t.due.isNone && isClick event then { t with due := some (now + typeDelay) } else t

def passwordEvents (password : String) : List InputEvent :=
  ((password.toList.flatMap encodeUtf16).flatMap fun ch => [.unicode ch true, .unicode ch false]) ++
    [.key enterScancode false true, .key enterScancode false false]

def poll (t : GreeterTypist) (now : Instant) (password : String) :
    GreeterTypist × Option (List InputEvent) :=
  if t.armed && t.due.any (· ≤ now) then (disarm, some (passwordEvents password)) else (t, none)

end GreeterTypist

end Drift.Rdp
