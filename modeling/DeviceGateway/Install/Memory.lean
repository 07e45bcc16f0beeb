import DeviceGateway.Install.Installer

/-!
# Packages in memory

An installer that keeps packages in memory, and that can be told to refuse.
-/

namespace DeviceGateway

/-- What a memory installer refuses. -/
structure MemoryRefusals where
  /-- Why no transaction can be begun. -/
  beginning : Option String
  /-- The write that fails, counted from zero. -/
  write : Option Nat
  /-- Why no transaction can be committed. -/
  commit : Option String
  deriving DecidableEq, Repr, Inhabited

/-- A package with the name that its sender gave it. -/
structure MemoryPackage where
  label : Option String
  data : Bytes
  deriving DecidableEq, Repr, Inhabited

/-- What a memory installer remembers. -/
structure MemoryStore where
  refusals : MemoryRefusals
  writes : Nat
  /-- The packages committed, in order. -/
  committed : List MemoryPackage
  /-- How many transactions were given up. -/
  aborted : Nat
  deriving DecidableEq, Repr, Inhabited

namespace MemoryStore

def new (refusals : MemoryRefusals) : MemoryStore := ⟨refusals, 0, [], 0⟩

def abort (s : MemoryStore) : MemoryStore := { s with aborted := s.aborted + 1 }

def write (s : MemoryStore) (p : MemoryPackage) (data : Bytes) :
    Except GatewayError MemoryPackage × MemoryStore :=
  (if s.refusals.write = some s.writes then .error (.notFound "storage")
    else .ok { p with data := p.data ++ data },
   { s with writes := s.writes + 1 })

/-- Commits a package, or gives it up. -/
def commit (s : MemoryStore) (p : MemoryPackage) : Except GatewayError Unit × MemoryStore :=
  match s.refusals.commit with
  | some text => (.error (.protocol text), s.abort)
  | none => (.ok (), { s with committed := s.committed ++ [p] })

end MemoryStore

/-- **The installer that keeps packages in memory.** -/
def memoryInstaller : Installer MemoryStore MemoryPackage where
  begin label := Job.atOnce fun w =>
    (match w.installs.refusals.beginning with
      | some text => .error (.other text)
      | none => .ok ⟨label, []⟩, w)
  write p data := Job.atOnce fun w =>
    let (r, s) := w.installs.write p data
    (r, { w with installs := s })
  commit p := Job.atOnce fun w =>
    let (r, s) := w.installs.commit p
    (r, { w with installs := s })
  release _ w := { w with installs := w.installs.abort }

end DeviceGateway
