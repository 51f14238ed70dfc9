import Mathlib.Data.List.Basic

/-!
# Regions of reserved memory as devices (`dstsblt.c`)

The driver makes a character device of each region of reserved memory that the device tree names,
and lets a user read it until it is locked. What is registered with the kernel is kept beside the
driver's own state; to take down what is not there is `none`.
-/

namespace Dsts

def numBltRegions : Nat := 1
def pageSize : Nat := 4096
def uintMax : Nat := 4294967295
def driverVersionInt : Nat := 0x02000000

def eperm : Int := 1
def eio : Int := 5
def enxio : Int := 6
def eacces : Int := 13
def einval : Int := 22
def espipe : Int := 29

/-- A device number. -/
structure Dev where
  major : Nat
  minor : Nat
  deriving DecidableEq

/-! ## The kernel's side -/

/-- A range of minors. -/
structure Range where
  first : Dev
  count : Nat
  deriving DecidableEq

/-- What `class_create` returned. -/
inductive ClassPtr where
  | null
  | err
  | ok
  deriving DecidableEq

/-- What is registered, and the device numbers added so far, each with the range registered then. -/
structure Kernel where
  chrdev : Option Range
  cls : Bool
  maps : List Nat
  cdevs : List Dev
  devices : List Dev
  added : List (Dev × Option Range)
  deriving DecidableEq

namespace Kernel

variable (k : Kernel)

def cdevAdd (d : Dev) : Kernel :=
  { k with cdevs := d :: k.cdevs, added := (d, k.chrdev) :: k.added }

def deviceCreate (d : Dev) : Kernel :=
  { k with devices := d :: k.devices, added := (d, k.chrdev) :: k.added }

def cdevDel (d : Dev) : Option Kernel :=
  if d ∈ k.cdevs then some { k with cdevs := k.cdevs.erase d } else none

def deviceDestroy (d : Dev) : Option Kernel :=
  if d ∈ k.devices then some { k with devices := k.devices.erase d } else none

def ioremap (p : Nat) : Kernel := { k with maps := p :: k.maps }

def iounmap (p : Nat) : Option Kernel :=
  if p ∈ k.maps then some { k with maps := k.maps.erase p } else none

/-- `class_destroy`, which ignores what is not a class. -/
def classDestroy : ClassPtr → Option Kernel
  | .ok => if k.cls then some { k with cls := false } else none
  | _ => some k

def unregisterChrdevRegion (r : Range) : Option Kernel :=
  if k.chrdev = some r then some { k with chrdev := none } else none

/-- Nothing is registered. -/
def Clean : Prop :=
  k.chrdev = none ∧ k.cls = false ∧ k.maps = [] ∧ k.cdevs = [] ∧ k.devices = []

instance : Decidable k.Clean := inferInstanceAs (Decidable (_ ∧ _))

end Kernel

/-! ## The driver's state -/

/-- `dstsblt_statistics_t`. -/
structure Statistics where
  numAccess : Nat
  numRead : Nat
  numWrite : Nat
  numIoctl : Nat
  numMmap : Nat
  deriving DecidableEq

/-- `dstsblt_nvm_t`. -/
structure Nvm where
  partname : List UInt8
  offset : Nat
  entrysize : Nat
  deriving DecidableEq

/-- `dstsblt_priv_data_t`; the character device is known by its number. -/
structure PrivData where
  base : Nat
  size : Nat
  dev : Dev
  mappedVa : Nat
  id : Nat
  valid : Bool
  used : Bool
  locked : Bool
  statistics : Statistics
  nvm : Nvm

/-- An unused entry. -/
def PrivData.zero : PrivData :=
  ⟨0, 0, ⟨0, 0⟩, 0, 0, false, false, false, ⟨0, 0, 0, 0, 0⟩, ⟨List.replicate 16 0, 0, 0⟩⟩

/-- The static data of the driver, the kernel's side and the physical memory. -/
structure State where
  regions : Nat → PrivData
  numRegions : Nat
  major : Nat
  chrdev : Dev
  cl : ClassPtr
  kernel : Kernel
  mem : Nat → UInt8

/-- The state when the module is loaded. -/
def State.init (mem : Nat → UInt8) : State :=
  ⟨fun _ => .zero, 0, 0, ⟨0, 0⟩, .null, ⟨none, false, [], [], [], []⟩, mem⟩

def State.setRegion (s : State) (r : Nat) (p : PrivData) : State :=
  { s with regions := fun i => if i = r then p else s.regions i }

/-- A region mapped at `va`. -/
def State.mapRegion (s : State) (r va : Nat) : State :=
  { s.setRegion r { s.regions r with mappedVa := va } with kernel := s.kernel.ioremap va }

/-! ## The device tree -/

/-- A compatible node: its parent's name, if it has one, and its properties. -/
structure Node where
  available : Bool
  parent : Option String
  reg : Option (List UInt8)
  regionIdent : Option (List UInt8)
  nvmPart : Option (List UInt8)
  nvmOffset : Option (List UInt8)
  nvmEntrysize : Option (List UInt8)

/-- A number in the byte order of a device tree. -/
def fdtToCpu (bytes : List UInt8) : Nat := bytes.foldl (fun n b => n * 256 + b.toNat) 0

/-- A property of the length that is expected. -/
def sized (n : Nat) (prop : Option (List UInt8)) : Option (List UInt8) :=
  prop.filter fun bytes => bytes.length = n

/-- The properties about the non-volatile memory, each as it was where it is missing. -/
def Node.nvm (n : Node) (old : Nvm) : Nvm where
  partname := match n.nvmPart.filter fun bytes => bytes.length < 16 with
    | some bytes => bytes ++ old.partname.drop bytes.length
    | none => old.partname
  offset := ((sized 4 n.nvmOffset).map fdtToCpu).getD old.offset
  entrysize := ((sized 4 n.nvmEntrysize).map fdtToCpu).getD old.entrysize

/-- The body of the loop over the nodes. -/
def scanNode (s : State) (n : Node) : State :=
  if ¬ n.available then s
  else if n.parent ≠ some "reserved-memory" then s
  else
    match sized 16 n.reg, sized 4 n.regionIdent with
    | some reg, some ident =>
      let id := fdtToCpu ident
      let p := s.regions id
      if numBltRegions ≤ id ∨ p.used then s
      else
        { s.setRegion id { p with
            base := fdtToCpu (reg.take 8)
            size := fdtToCpu (reg.drop 8)
            id := id
            used := true
            nvm := n.nvm p.nvm } with
          numRegions := s.numRegions + 1 }
    | _, _ => s

/-! ## Setting up -/

/-- What the kernel answers: the range of minors, the class and, for each region, the mapping, the
character device and the device. -/
structure Outcomes where
  chrdevErr : Int
  chrdevMajor : Nat
  cls : ClassPtr
  ioremap : Nat → Option Nat
  cdevErr : Nat → Int
  deviceOk : Nat → Bool

section
variable (o : Outcomes)

/-- `dstsblt_setup_device`; without a class there is no device. -/
def setupDevice (s : State) (region index : Nat) : Option (Int × State) :=
  let dev : Dev := ⟨s.major, index⟩
  let s := s.setRegion region { s.regions region with dev := dev }
  if o.cdevErr region ≠ 0 then some (o.cdevErr region, s)
  else
    let k := s.kernel.cdevAdd dev
    if s.cl = .ok ∧ o.deviceOk region then some (0, { s with kernel := k.deviceCreate dev })
    else (k.cdevDel dev).map fun k => (-enxio, { s with kernel := k })

/-- `dstsblt_register_region`. -/
def registerRegion (s : State) (region : Nat) : Option (Int × State) :=
  let p := s.regions region
  if numBltRegions ≤ region then some (-1, s)
  else if p.base % pageSize ≠ 0 ∨ p.size % pageSize ≠ 0 then some (-1, s)
  else if p.base = 0 ∨ p.size = 0 then some (-1, s)
  else
    match o.ioremap region with
    | none => some (-1, s)
    | some va =>
      match setupDevice o (s.mapRegion region va) region p.id with
      | none => none
      | some (err, s) =>
        if err ≠ 0 then (s.kernel.iounmap va).map fun k => (-1, { s with kernel := k })
        else some (0, s.setRegion region { s.regions region with valid := true })

/-- The loop over the regions, with the number of those that failed. -/
def registerRegions (s : State) : List Nat → Option (Nat × State)
  | [] => some (0, s)
  | region :: rest =>
    if (s.regions region).used then
      match registerRegion o s region with
      | none => none
      | some (err, s) =>
        (registerRegions s rest).map fun q => (if err ≠ 0 then q.1 + 1 else q.1, q.2)
    else registerRegions s rest

def State.range (s : State) : Range := ⟨s.chrdev, s.numRegions⟩

/-- The range of minors and the class that the kernel gives. -/
def State.prepare (s : State) : State :=
  let s := { s with chrdev := ⟨o.chrdevMajor, 0⟩, major := o.chrdevMajor, cl := o.cls }
  { s with kernel := { s.kernel with chrdev := some s.range, cls := o.cls = .ok } }

/-- `dstsblt_init`. -/
def dstsbltInit (nodes : List Node) (mem : Nat → UInt8) : Option (Int × State) :=
  let s := nodes.foldl scanNode (State.init mem)
  if s.numRegions = 0 then some (-eio, s)
  else if o.chrdevErr < 0 then some (o.chrdevErr, s)
  else
    let s := s.prepare o
    if s.cl = .null then
      (s.kernel.unregisterChrdevRegion s.range).map fun k => (-eio, { s with kernel := k })
    else
      match registerRegions o s (List.range numBltRegions) with
      | none => none
      | some (failed, s) =>
        if failed = s.numRegions then do
          let k ← s.kernel.classDestroy s.cl
          let k ← k.unregisterChrdevRegion s.range
          return (-eio, { s with kernel := k })
        else some (0, s)

end

/-- `dstsblt_clear_region`. -/
def clearRegion (s : State) (r : Nat) : State :=
  let p := s.regions r
  if p.valid then
    { s with mem := fun a => if p.base ≤ a ∧ a < p.base + p.size then 0 else s.mem a }
  else s

/-- The body of the loop of `dstsblt_exit`. -/
def exitRegion (s : State) (r : Nat) : Option State :=
  if (s.regions r).valid then do
    let s := clearRegion s r
    let p := s.regions r
    let s := s.setRegion r { p with valid := false }
    let k ← s.kernel.deviceDestroy p.dev
    let k ← k.cdevDel p.dev
    let k ← k.iounmap p.mappedVa
    return { s with kernel := k }
  else some s

/-- `dstsblt_exit`. -/
def dstsbltExit (s : State) : Option State := do
  let s ← (List.range s.numRegions).foldlM exitRegion s
  let k ← s.kernel.classDestroy s.cl
  let k ← k.unregisterChrdevRegion s.range
  return { s with kernel := k }

/-! ## File operations -/

/-- `dstsblt_info_t`. -/
structure Info where
  id : Nat
  locked : Bool
  version : Nat
  base : Nat
  size : Nat
  statistics : Statistics
  nvm : Nvm

/-- An operation on the file of a region; `seek` is the kernel's for files without one. -/
inductive Op where
  | open
  | read (len : Nat) (off : Int)
  | write
  | seek (off : Int)
  | ioctl (cmd : Nat)
  | mmap
  | release

/-- What an operation returns and copies to the user, and how far it moves the file's position. -/
structure Result where
  ret : Int
  content : List UInt8
  info : Option Info
  advance : Nat

def Result.code (ret : Int) : Result := ⟨ret, [], none, 0⟩

def ioctlLock : Nat := 0x4210
def ioctlGetinfo : Nat := 0x80504215
def ioctlGetvers : Nat := 0x80044200

/-- A counter that stays at its largest value. -/
def bump (n : Nat) : Nat := if n < uintMax then n + 1 else n

/-- `dstsblt_dev_read`, of a region as it is counted. -/
def devRead (p : PrivData) (mem : Nat → UInt8) (len : Nat) (off : Int) : Result :=
  if p.locked then .code (-eperm)
  else if off < 0 then .code (-einval)
  else if p.size ≤ off.toNat then .code 0
  else
    let rlen := if len < p.size - off.toNat then len else p.size - off.toNat
    ⟨rlen, (List.range rlen).map fun i => mem (p.base + off.toNat + i), none, rlen⟩

/-- `dstsblt_dev_ioctl`. -/
def devIoctl (s : State) (r : Nat) (cmd : Nat) : Result × State :=
  let p := s.regions r
  if cmd = ioctlLock then (.code 0, clearRegion (s.setRegion r { p with locked := true }) r)
  else if cmd = ioctlGetinfo then
    (⟨0, [], some ⟨p.id, p.locked, driverVersionInt, p.base, p.size, p.statistics, p.nvm⟩, 0⟩, s)
  else if cmd = ioctlGetvers then (.code 0, s)
  else (.code (-einval), s)

/-- Count an operation in the statistics of a region. -/
def State.counted (s : State) (r : Nat) (count : Statistics → Statistics) : State :=
  s.setRegion r { s.regions r with statistics := count (s.regions r).statistics }

/-- An operation on the file of a region's device, which there is only while the device is. -/
def step (s : State) : Nat × Op → Option (Result × State)
  | (r, op) =>
    if (s.regions r).used = false ∨ (s.regions r).dev ∉ s.kernel.cdevs then
      some (.code (-enxio), s)
    else
      match op with
      | .open =>
        some (.code (if (s.regions r).valid then 0 else -eio),
          s.counted r fun n => { n with numAccess := bump n.numAccess })
      | .read len off =>
        let s := s.counted r fun n => { n with numRead := bump n.numRead }
        some (devRead (s.regions r) s.mem len off, s)
      | .write =>
        some (.code (-eacces), s.counted r fun n => { n with numWrite := bump n.numWrite })
      | .seek _ => some (.code (-espipe), s)
      | .ioctl cmd =>
        some (devIoctl (s.counted r fun n => { n with numIoctl := bump n.numIoctl }) r cmd)
      | .mmap => some (.code (-eio), s)
      | .release => some (.code 0, s)

end Dsts
