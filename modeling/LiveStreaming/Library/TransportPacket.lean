import Mathlib.Data.List.Basic

/-!
# MPEG-2 transport packets

A packet is 188 bytes: a header of four, an adaptation field when the control bits announce one, and
the payload. `Packet` can only be built full; the functions below read a packet's parts off its bytes.
-/

namespace LiveStreaming.Library.TransportPacket

structure Packet where
  pid : Fin 8192
  unitStart : Bool
  continuity : Fin 16
  adaptation : Option (List UInt8)
  payload : List UInt8
  full : 4 + (adaptation.elim 0 (·.length + 1)) + payload.length = 188

namespace Packet

def header (p : Packet) : List UInt8 :=
  [0x47, UInt8.ofNat (p.unitStart.toNat * 64 + p.pid / 256), UInt8.ofNat (p.pid % 256),
    UInt8.ofNat ((if p.adaptation.isSome then 48 else 16) + p.continuity)]

/-- The adaptation field behind its length byte. -/
def field (p : Packet) : List UInt8 :=
  p.adaptation.elim [] fun field => UInt8.ofNat field.length :: field

def bytes (p : Packet) : List UInt8 := p.header ++ p.field ++ p.payload

end Packet

/-- A byte of a packet, and what the bits of the header say. -/
def byte (packet : List UInt8) (i : Nat) : Nat := (packet.getD i 0).toNat

def unitStart (packet : List UInt8) : Bool := byte packet 1 / 64 % 2 == 1

def pid (packet : List UInt8) : Nat := byte packet 1 % 32 * 256 + byte packet 2

def hasAdaptation (packet : List UInt8) : Bool := byte packet 3 / 32 % 2 == 1

def continuity (packet : List UInt8) : Nat := byte packet 3 % 16

def payload (packet : List UInt8) : List UInt8 :=
  if hasAdaptation packet then packet.drop (5 + byte packet 4) else packet.drop 4

variable (p : Packet)

@[simp] theorem length_bytes : p.bytes.length = 188 := by
  have full := p.full
  cases adaptation : p.adaptation <;> simp [Packet.bytes, Packet.header, Packet.field, adaptation] at full ⊢ <;> omega

theorem head_bytes : p.bytes.head? = some 0x47 := rfl

theorem byte_one : byte p.bytes 1 = p.unitStart.toNat * 64 + p.pid / 256 := by
  have := p.pid.isLt
  have := Bool.toNat_le p.unitStart
  show (UInt8.ofNat (p.unitStart.toNat * 64 + p.pid / 256)).toNat = _
  rw [UInt8.toNat_ofNat']
  omega

theorem byte_two : byte p.bytes 2 = p.pid % 256 := by
  show (UInt8.ofNat (p.pid % 256)).toNat = _
  rw [UInt8.toNat_ofNat']
  omega

theorem byte_three : byte p.bytes 3 = (if p.adaptation.isSome then 48 else 16) + p.continuity := by
  have := p.continuity.isLt
  show (UInt8.ofNat ((if p.adaptation.isSome then 48 else 16) + p.continuity)).toNat = _
  rw [UInt8.toNat_ofNat']
  split <;> omega

@[simp] theorem unitStart_bytes : unitStart p.bytes = p.unitStart := by
  have := p.pid.isLt
  rw [unitStart, byte_one]
  cases p.unitStart <;> simp <;> omega

@[simp] theorem pid_bytes : pid p.bytes = p.pid := by
  have := p.pid.isLt
  have := Bool.toNat_le p.unitStart
  rw [pid, byte_one, byte_two]
  omega

@[simp] theorem hasAdaptation_bytes : hasAdaptation p.bytes = p.adaptation.isSome := by
  have := p.continuity.isLt
  rw [hasAdaptation, byte_three]
  cases p.adaptation <;> simp <;> omega

@[simp] theorem continuity_bytes : continuity p.bytes = p.continuity := by
  have := p.continuity.isLt
  rw [continuity, byte_three]
  split <;> omega

/-- The length byte of the adaptation field is the number of bytes between it and the payload. -/
theorem byte_four {field : List UInt8} (adaptation : p.adaptation = some field) :
    byte p.bytes 4 = field.length := by
  have full := p.full
  simp only [adaptation, Option.elim_some] at full
  have length : p.bytes = p.header ++ (UInt8.ofNat field.length :: field) ++ p.payload := by
    simp [Packet.bytes, Packet.field, adaptation]
  rw [length]
  show (UInt8.ofNat field.length).toNat = _
  rw [UInt8.toNat_ofNat']
  omega

@[simp] theorem payload_bytes : payload p.bytes = p.payload := by
  rw [payload, hasAdaptation_bytes]
  cases adaptation : p.adaptation with
  | none => simp [Packet.bytes, Packet.header, Packet.field, adaptation]
  | some field =>
    have length : (p.header ++ p.field).length = 5 + field.length := by
      simp [Packet.header, Packet.field, adaptation]
      omega
    rw [byte_four p adaptation, Packet.bytes, ← length]
    exact List.drop_left

end LiveStreaming.Library.TransportPacket
