import ProofboundRuntime.Lib.Text

/-!
# Network names

`ServiceName` of `network.rs`.
-/

namespace ProofboundRuntime.Core

namespace ServiceName

/-- The bytes of a label: lowercase letters, digits and hyphens. -/
def isLabelByte (b : UInt8) : Bool := Ascii.isLowercase b || Ascii.isDigit b || b == 0x2d

/-- A label of a name. -/
def validLabel (label : List UInt8) : Bool :=
  label ≠ [] && label.length ≤ 63 && label.head? ≠ some 0x2d && label.getLast? ≠ some 0x2d &&
    label.all isLabelByte

/-- What `ServiceName::new` accepts.  An IPv4 address consists of digits and dots, and
the labels leave no room for the colon of an IPv6 address. -/
def accepts (value : String) : Bool :=
  let bytes := Utf8.bytes value
  bytes ≠ [] && bytes.length ≤ 253 && bytes.getLast? ≠ some 0x2e &&
    !bytes.all (fun b => Ascii.isDigit b || b == 0x2e) &&
    (bytes.splitOn 0x2e).all validLabel

end ServiceName

structure ServiceName where
  asStr : String
  accepted : ServiceName.accepts asStr = true
deriving DecidableEq

/-- `ServiceName::new`; no caller here tells its two errors apart. -/
def ServiceName.new (value : String) : Option ServiceName :=
  if h : ServiceName.accepts value = true then some ⟨value, h⟩ else none

end ProofboundRuntime.Core
