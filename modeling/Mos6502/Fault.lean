import Mos6502.Text.Numeral

/-!
Faults: the conditions that execution can raise, their codes and texts, and the severity levels that
decide which of them stop a run. A machine holds at most one fault at a time; the first one stays.
-/

namespace Mos6502

/-- The conditions that execution can raise. -/
inductive FaultKind where
  | executeUndefined
  | executeUninitialized
  | readUndefined
  | readUninitialized
  | writeUndefined
  | writeRom
  | brk
  | illegal
  | callReturn
  | cycleLimit
  | user
deriving DecidableEq, Repr

namespace FaultKind

def all : List FaultKind :=
  [.executeUndefined, .executeUninitialized, .readUndefined, .readUninitialized, .writeUndefined,
    .writeRom, .brk, .illegal, .callReturn, .cycleLimit, .user]

/-- The stable negative code of a kind. -/
def code : FaultKind → Int
  | .executeUndefined => -1
  | .executeUninitialized => -2
  | .readUndefined => -3
  | .readUninitialized => -4
  | .writeUndefined => -5
  | .writeRom => -6
  | .brk => -7
  | .illegal => -8
  | .callReturn => -9
  | .cycleLimit => -10
  | .user => -11

def ofCode? (code : Int) : Option FaultKind :=
  all.find? (·.code == code)

/-- The short name, which also labels counters. -/
def name : FaultKind → String
  | .executeUndefined => "exec_undef"
  | .executeUninitialized => "exec_uninit"
  | .readUndefined => "read_undef"
  | .readUninitialized => "read_uninit"
  | .writeUndefined => "write_undef"
  | .writeRom => "write_rom"
  | .brk => "break"
  | .illegal => "invalid_insn"
  | .callReturn => "call_ret"
  | .cycleLimit => "cycle_limit"
  | .user => "user"

def ofName? (name : String) : Option FaultKind :=
  all.find? (·.name == name)

/-- The name used where faults are stored as data. -/
def tag : FaultKind → String
  | .executeUndefined => "ExecUndef"
  | .executeUninitialized => "ExecUninit"
  | .readUndefined => "ReadUndef"
  | .readUninitialized => "ReadUninit"
  | .writeUndefined => "WriteUndef"
  | .writeRom => "WriteRom"
  | .brk => "Break"
  | .illegal => "InvalidInsn"
  | .callReturn => "CallRet"
  | .cycleLimit => "CycleLimit"
  | .user => "User"

def text : FaultKind → String
  | .executeUndefined => "execute from undefined memory"
  | .executeUninitialized => "execute from uninitialized memory"
  | .readUndefined => "read from undefined memory"
  | .readUninitialized => "read from uninitialized memory"
  | .writeUndefined => "write to undefined memory"
  | .writeRom => "write to read-only memory"
  | .brk => "BRK instruction"
  | .illegal => "invalid instruction"
  | .callReturn => "return from call"
  | .cycleLimit => "cycle limit reached"
  | .user => "user error"

/-- Whether a kind stops a run at every level. -/
def isUnconditional : FaultKind → Bool
  | .brk | .illegal | .callReturn | .cycleLimit | .user => true
  | _ => false

end FaultKind

/-- How strict a machine is about memory errors. -/
inductive ErrorLevel where
  | none
  | memory
  | full
deriving DecidableEq, Repr

namespace ErrorLevel

/-- Whether a fault of this kind stops a run at this level: `none` lets every memory error pass,
`memory` stops at execution from and writes to undefined memory, `full` stops at all. -/
def isFatal (level : ErrorLevel) (kind : FaultKind) : Bool :=
  kind.isUnconditional ||
    match level with
    | .none => false
    | .memory => kind == .executeUndefined || kind == .writeUndefined
    | .full => true

def name : ErrorLevel → String
  | .none => "none"
  | .memory => "memory"
  | .full => "full"

/-- Reads a level, ignoring the case of ASCII letters; the error is the message. -/
def parse (text : String) : Except String ErrorLevel :=
  match text.map Char.toLower with
  | "none" => .ok .none
  | "memory" => .ok .memory
  | "mem" => .ok .memory
  | "full" => .ok .full
  | other => .error ("unknown error level '" ++ other ++ "'")

end ErrorLevel

/-- A condition together with the address that caused it. -/
structure Fault where
  kind : FaultKind
  addr : UInt16
deriving DecidableEq, Repr

def Fault.text (fault : Fault) : String :=
  fault.kind.text ++ " at $" ++ Text.hex 4 fault.addr.toNat

/-- The slot for the fault of one instruction window. -/
structure FaultSlot where
  fault : Option Fault := none
deriving DecidableEq, Repr

namespace FaultSlot

/-- Records a fault unless one is held already. -/
def record (slot : FaultSlot) (kind : FaultKind) (addr : UInt16) : FaultSlot :=
  match slot.fault with
  | none => ⟨some ⟨kind, addr⟩⟩
  | some _ => slot

def isSet (slot : FaultSlot) : Bool :=
  slot.fault.isSome

theorem record_of_some {slot : FaultSlot} {fault : Fault} (held : slot.fault = some fault)
    (kind : FaultKind) (addr : UInt16) : slot.record kind addr = slot := by
  simp [record, held]

theorem record_of_none {slot : FaultSlot} (empty : slot.fault = none)
    (kind : FaultKind) (addr : UInt16) : (slot.record kind addr).fault = some ⟨kind, addr⟩ := by
  simp [record, empty]

end FaultSlot

end Mos6502
