import Automation.Text.Digits
/-! Simple case folding: which characters differ only in case. Most of them come in pairs
that repeat regularly, so a run of pairs is given by its first member, the distance to its
partner, the number of pairs and the step between pairs; the few larger groups are listed
member by member. All numbers are hexadecimal. -/
namespace Automation.Unicode
open Automation.Text (readDigits?)

structure PairRun where
  first : Nat
  distance : Nat
  count : Nat
  step : Nat
  deriving DecidableEq, Repr

def pairText : String :=
   String.join
    ["41:20:a:1 4c:20:7:1 54:20:7:1 c0:20:5:1 c6:20:11:1 d8:20:7:1 df:1dbf:1:1 ff:79:1:1 ",
     "100:1:18:2 132:1:3:2 139:1:8:2 14a:1:17:2 179:1:3:2 180:c3:1:1 181:d2:1:1 182:1:2:2 ",
     "186:ce:1:1 187:1:1:1 189:cd:2:1 18b:1:1:1 18e:4f:1:1 18f:ca:1:1 190:cb:1:1 191:1:1:1 ",
     "193:cd:1:1 194:cf:1:1 195:61:1:1 196:d3:1:1 197:d1:1:1 198:1:1:1 19a:a3:1:1 19c:d3:1:1 ",
     "19d:d5:1:1 19e:82:1:1 19f:d6:1:1 1a0:1:3:2 1a6:da:1:1 1a7:1:1:1 1a9:da:1:1 1ac:1:1:1 ",
     "1ae:da:1:1 1af:1:1:1 1b1:d9:2:1 1b3:1:2:2 1b7:db:1:1 1b8:1:1:1 1bc:1:1:1 1bf:38:1:1 ",
     "1cd:1:8:2 1de:1:9:2 1f4:1:1:1 1f8:1:14:2 222:1:9:2 23a:2a2b:1:1 23b:1:1:1 23e:2a28:1:1 ",
     "23f:2a3f:2:1 241:1:1:1 244:45:1:1 245:47:1:1 246:1:5:2 250:2a1f:1:1 251:2a1c:1:1 ",
     "252:2a1e:1:1 25c:a54f:1:1 261:a54b:1:1 265:a528:1:1 266:a544:1:1 26a:a544:1:1 26b:29f7:1:1 ",
     "26c:a541:1:1 271:29fd:1:1 27d:29e7:1:1 282:a543:1:1 287:a52a:1:1 29d:a515:1:1 29e:a512:1:1 ",
     "370:1:2:2 376:1:1:1 37b:82:3:1 37f:74:1:1 386:26:1:1 388:25:3:1 38c:40:1:1 38e:3f:2:1 ",
     "390:1c43:1:1 391:20:2:2 394:20:2:2 397:20:1:1 39b:20:2:2 39e:20:2:1 3a4:20:2:1 3a7:20:2:1 ",
     "3aa:20:2:1 3b0:1c33:1:1 3cf:8:1:1 3d8:1:c:2 3f2:7:1:1 3f7:1:1:1 3fa:1:1:1 400:50:10:1 ",
     "410:20:2:1 413:20:2:2 416:20:8:1 41f:20:2:1 423:20:7:1 42b:20:5:1 460:1:1:1 464:1:f:2 ",
     "48a:1:1b:2 4c0:f:1:1 4c1:1:7:2 4d0:1:30:2 531:30:26:1 10a0:1c60:26:1 10c7:1c60:1:1 ",
     "10cd:1c60:1:1 10d0:bc0:2b:1 10fd:bc0:3:1 13a0:97d0:50:1 13f0:8:6:1 1d79:8a04:1:1 ",
     "1d7d:ee6:1:1 1d8e:8a38:1:1 1e00:1:30:2 1e62:1:1a:2 1ea0:1:30:2 1f00:8:8:1 1f10:8:6:1 ",
     "1f20:8:8:1 1f30:8:8:1 1f40:8:6:1 1f51:8:4:2 1f60:8:8:1 1f70:4a:2:1 1f72:56:4:1 1f76:64:2:1 ",
     "1f78:80:2:1 1f7a:70:2:1 1f7c:7e:2:1 1f80:8:8:1 1f90:8:8:1 1fa0:8:8:1 1fb0:8:2:1 1fb3:9:1:1 ",
     "1fc3:9:1:1 1fd0:8:2:1 1fe0:8:2:1 1fe5:7:1:1 1ff3:9:1:1 2132:1c:1:1 2160:10:10:1 2183:1:1:1 ",
     "24b6:1a:1a:1 2c00:30:30:1 2c60:1:1:1 2c67:1:3:2 2c72:1:1:1 2c75:1:1:1 2c80:1:32:2 ",
     "2ceb:1:2:2 2cf2:1:1:1 a640:1:5:2 a64c:1:11:2 a680:1:e:2 a722:1:7:2 a732:1:1f:2 a779:1:2:2 ",
     "a77e:1:5:2 a78b:1:1:1 a790:1:2:2 a794:30:1:1 a796:1:a:2 a7b3:3a0:1:1 a7b4:1:8:2 a7c7:1:2:2 ",
     "a7d0:1:1:1 a7d6:1:2:2 a7f5:1:1:1 fb05:1:1:1 ff21:20:1a:1 10400:28:28:1 104b0:28:24:1 ",
     "10570:27:b:1 1057c:27:f:1 1058c:27:7:1 10594:27:2:1 10c80:40:33:1 118a0:20:20:1 ",
     "16e40:20:20:1 1e900:22:22:1"]

def groupText : String :=
   String.join
    ["4b:6b:212a 53:73:17f b5:39c:3bc c5:e5:212b 1c4:1c5:1c6 1c7:1c8:1c9 1ca:1cb:1cc 1f1:1f2:1f3 ",
     "345:399:3b9:1fbe 392:3b2:3d0 395:3b5:3f5 398:3b8:3d1:3f4 39a:3ba:3f0 3a0:3c0:3d6 ",
     "3a1:3c1:3f1 3a3:3c2:3c3 3a6:3c6:3d5 3a9:3c9:2126 412:432:1c80 414:434:1c81 41e:43e:1c82 ",
     "421:441:1c83 422:442:1c84:1c85 42a:44a:1c86 462:463:1c87 1c88:a64a:a64b 1e60:1e61:1e9b"]

def splitAt (mark : Char) : List Char → List (List Char)
  | [] => [[]]
  | c :: rest =>
    if c = mark then [] :: splitAt mark rest
    else match splitAt mark rest with
      | [] => [[c]]
      | part :: parts => (c :: part) :: parts

def readNumbers (cs : List Char) : List Nat :=
  (splitAt ':' cs).filterMap (readDigits? 16)

def PairRun.ofNumbers? : List Nat → Option PairRun
  | [a, b, c, d] => some ⟨a, b, c, d⟩
  | _ => none

def pairRuns : List PairRun :=
  (splitAt ' ' pairText.toList).filterMap fun w => PairRun.ofNumbers? (readNumbers w)

def groups : List (List Nat) := (splitAt ' ' groupText.toList).map readNumbers

def PairRun.partner? (r : PairRun) (n : Nat) : Option Nat :=
  let member (base : Nat) : Bool :=
    base ≤ n && (n - base) % r.step == 0 && (n - base) / r.step < r.count
  if member r.first then some (n + r.distance)
  else if member (r.first + r.distance) then some (n - r.distance)
  else none

def caseVariants (c : Char) : List Char :=
  let n := c.toNat
  match groups.find? fun g => g.contains n with
  | some g => g.map Char.ofNat
  | none =>
    match pairRuns.findSome? fun r => r.partner? n with
    | some m => [c, Char.ofNat m]
    | none => [c]

end Automation.Unicode
