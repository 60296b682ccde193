import FunnyOS.Devices.Ahci

/-!
# What a controller may do

A controller finds a command in memory, by the addresses in its registers, and carries it out: it
moves the data of the named sectors between the disk and the named buffer. It may take any time for
that, do it in any order, and stop at an error halfway. `Moves` says what it may have done by the
next access of the driver to its registers.
-/

namespace FunnyOS.Devices

/-! ## Commands in memory -/

/-- A transfer of sectors. -/
structure HbaCommand where
  write : Bool
  lba : Nat
  count : Nat
  buffer : Nat
deriving DecidableEq

namespace HbaCommand

/-- The bytes of the disk that the command covers. -/
def Covers (c : HbaCommand) (l o : Nat) : Prop :=
  c.lba ≤ l ∧ l < c.lba + c.count ∧ o < 512

/-- The bytes of its buffer. -/
def InBuffer (c : HbaCommand) (a : Nat) : Prop := c.buffer ≤ a ∧ a < c.buffer + c.count * 512

/-- The place in the buffer of a byte of the disk. -/
def byteAt (c : HbaCommand) (l o : Nat) : Nat := c.buffer + ((l - c.lba) * 512 + o)

end HbaCommand

/-- The number in `count` bytes of memory, the lowest byte first. -/
def field (memory : Nat → UInt8) (address count : Nat) : Nat :=
  match count with
  | 0 => 0
  | count + 1 => (memory address).toNat + 256 * field memory (address + 1) count

/-- The two registers that hold an address. -/
def wide (low high : Nat) : Nat := low + high * 2 ^ 32

namespace Hba

/-- The command list of a port, of which the first entry is used. -/
def list (hba : Hba) (p : Nat) : Nat :=
  wide (hba.ports p).regs.clb.toNat (hba.ports p).regs.clbu.toNat

/-- The place of a port for received frames. -/
def received (hba : Hba) (p : Nat) : Nat :=
  wide (hba.ports p).regs.fb.toNat (hba.ports p).regs.fbu.toNat

/-- The command table that the header in the command list points to. -/
def table (hba : Hba) (p : Nat) : Nat :=
  wide (field hba.memory (hba.list p + 8) 4) (field hba.memory (hba.list p + 12) 4)

/-- The header and the frame are those of a transfer by DMA with 48-bit addresses and one piece of
memory, whose length is that of the sectors. -/
def Proper (hba : Hba) (p : Nat) (write : Bool) : Prop :=
  (hba.memory (hba.list p)).toNat % 32 = 5 ∧
  (hba.memory (hba.list p)).toNat / 64 % 2 = (if write then 1 else 0) ∧
  field hba.memory (hba.list p + 2) 2 = 1 ∧
  hba.memory (hba.table p) = 0x27 ∧ (hba.memory (hba.table p + 1)).toNat / 128 = 1 ∧
  hba.memory (hba.table p + 2) = (if write then 0x35 else 0x25) ∧
  (hba.memory (hba.table p + 7)).toNat / 64 % 2 = 1

/-- The command that a port finds in memory. A count of zero stands for 65536. -/
structure Finds (hba : Hba) (p : Nat) (c : HbaCommand) : Prop where
  proper : hba.Proper p c.write
  lba : c.lba = field hba.memory (hba.table p + 4) 3 + field hba.memory (hba.table p + 8) 3 * 2 ^ 24
  count : c.count =
    if field hba.memory (hba.table p + 12) 2 = 0 then 65536
    else field hba.memory (hba.table p + 12) 2
  buffer : c.buffer =
    wide (field hba.memory (hba.table p + 128) 4) (field hba.memory (hba.table p + 132) 4)
  length : c.count * 512 = field hba.memory (hba.table p + 140) 4 % 2 ^ 22 + 1

/-- A command is issued. -/
def Issued (hba : Hba) (p : Nat) : Prop := (hba.ports p).regs.ci &&& 1 ≠ 0

/-- The port is started. -/
def Started (hba : Hba) (p : Nat) : Prop := (hba.ports p).regs.cmd &&& hbaPxcmdSt ≠ 0

/-- The port is carrying out a command. -/
def Busy (hba : Hba) (p : Nat) : Prop :=
  hba.Issued p ∧ hba.Started p ∧ (hba.ports p).halted = false

end Hba

/-! ## Moves -/

/-- The registers that are the driver's. -/
structure SameSetup (port port' : HbaPort) : Prop where
  clb : port'.clb = port.clb
  clbu : port'.clbu = port.clbu
  fb : port'.fb = port.fb
  fbu : port'.fbu = port.fbu
  started : port'.cmd &&& hbaPxcmdSt = port.cmd &&& hbaPxcmdSt

/-- The controller may write received frames, and the length of what it has transferred. -/
def Hba.Own (hba : Hba) (p a : Nat) : Prop :=
  (hba.received p ≤ a ∧ a < hba.received p + 256) ∨ (hba.list p + 4 ≤ a ∧ a < hba.list p + 8)

/-- Nothing is carried out. -/
structure Rests (p : Nat) (hba hba' : Hba) : Prop where
  memory : ∀ a, hba'.memory a ≠ hba.memory a → hba.Own p a
  setup : SameSetup (hba.ports p).regs (hba'.ports p).regs
  ci : (hba'.ports p).regs.ci = (hba.ports p).regs.ci
  halted : (hba'.ports p).halted = (hba.ports p).halted
  disturbed : (hba'.ports p).disturbed = (hba.ports p).disturbed
  sectors : (hba'.ports p).sectors = (hba.ports p).sectors

/-- The command is being carried out: only its sectors or its buffer change. -/
structure Works (p : Nat) (c : HbaCommand) (hba hba' : Hba) : Prop where
  memory : ∀ a, hba'.memory a ≠ hba.memory a → hba.Own p a ∨ (c.write = false ∧ c.InBuffer a)
  setup : SameSetup (hba.ports p).regs (hba'.ports p).regs
  disturbed : (hba'.ports p).disturbed = (hba.ports p).disturbed
  sectors : ∀ l o, (hba'.ports p).sectors l o ≠ (hba.ports p).sectors l o →
    c.write = true ∧ c.Covers l o

/-- The command is done: the buffer and the sectors hold the same. -/
def Done (p : Nat) (c : HbaCommand) (hba : Hba) : Prop :=
  ∀ l o, c.Covers l o → (hba.ports p).sectors l o = hba.memory (c.byteAt l o)

/-- How a move of a port that carries out `c` ends: the port is still busy and says so, or it is
done, or it has stopped at an error. Where the kernel has written to memory meanwhile, nothing is
said of what the command has done. That a port says in `tfd` that it is busy, from the time when
the command is issued, is what the driver itself relies on: it looks at nothing else before it
writes the next command over one that it has given up on. -/
def Settles (p : Nat) (c : HbaCommand) (hba hba' : Hba) : Prop :=
  ((hba'.ports p).regs.ci = (hba.ports p).regs.ci ∧ (hba'.ports p).halted = false ∧
    (hba'.ports p).regs.tfd &&& hbaPxtfdBusy ≠ 0) ∨
  (¬ hba'.Issued p ∧ (hba'.ports p).halted = false ∧
    ((hba'.ports p).disturbed = false → Done p c hba')) ∨
  ((hba'.ports p).regs.ci = (hba.ports p).regs.ci ∧ (hba'.ports p).halted = true)

/-- What a controller may do between two accesses to its registers. Nothing is said of a port that
finds no proper command. -/
structure Moves (p : Nat) (hba hba' : Hba) : Prop where
  rests : ¬ hba.Busy p → Rests p hba hba'
  works : hba.Busy p → ∀ c, hba.Finds p c → Works p c hba hba' ∧ Settles p c hba hba'

/-- The controller keeps to this. -/
def AhciEnv.Conforms (env : AhciEnv) (p : Nat) : Prop := ∀ n hba, Moves p hba (env.moves n hba)

end FunnyOS.Devices
