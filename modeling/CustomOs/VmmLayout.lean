import CustomOs.Library.MachineWord

/-! # Virtual address windows (Stage 8A)
The three windows of the address space and the checks on addresses and regions. -/
namespace VmmLayout

def vmmLayoutPageSize4k : UInt32 := 0x1000
def vmmLayoutPageMask4k : UInt32 := vmmLayoutPageSize4k - 1
def activeIdentityStart : UInt32 := 0x00000000
def activeIdentityEndExclusive : UInt32 := 0x00400000
def futureHeapReservedStart : UInt32 := 0x00400000
def futureHeapReservedEndExclusive : UInt32 := 0x00800000
def futureMappingReservedStart : UInt32 := 0x00800000
def futureMappingReservedEndExclusive : UInt32 := 0x01000000

inductive RegionClass where
  | activeIdentity
  | futureHeapReserved
  | futureMappingReserved
  | unclassified
  deriving DecidableEq, Repr

def stage8aIs4kAligned (value : UInt32) : Bool := value &&& vmmLayoutPageMask4k = 0

def stage8aAddrInHalfOpenRange (addr rangeStart rangeEndExclusive : UInt32) : Bool :=
  rangeStart ≤ addr ∧ addr < rangeEndExclusive

/-- The end of a region, when it has one within 32 bits. -/
def stage8aComputeRegionEnd (startAddr length : UInt32) : Option UInt32 :=
  if length = 0 then none
  else
    let sum := startAddr.toUInt64 + length.toUInt64
    if (0xFFFFFFFF : UInt64) < sum then none
    else if startAddr < sum.toUInt32 then some sum.toUInt32
    else none

def stage8aRegionInHalfOpenRange (startAddr length rangeStart rangeEndExclusive : UInt32) :
    Bool :=
  match stage8aComputeRegionEnd startAddr length with
  | none => false
  | some endExclusive => rangeStart ≤ startAddr ∧ endExclusive ≤ rangeEndExclusive

def stage8aIsAddrInActiveIdentity (virtualAddr : UInt32) : Bool :=
  stage8aAddrInHalfOpenRange virtualAddr activeIdentityStart activeIdentityEndExclusive

def stage8aIsAddrInFutureHeapReserved (virtualAddr : UInt32) : Bool :=
  stage8aAddrInHalfOpenRange virtualAddr futureHeapReservedStart futureHeapReservedEndExclusive

def stage8aIsAddrInFutureMappingReserved (virtualAddr : UInt32) : Bool :=
  stage8aAddrInHalfOpenRange virtualAddr futureMappingReservedStart
    futureMappingReservedEndExclusive

def stage8aIsRegionInActiveIdentity (startAddr length : UInt32) : Bool :=
  stage8aRegionInHalfOpenRange startAddr length activeIdentityStart activeIdentityEndExclusive

def stage8aIsRegionInFutureHeapReserved (startAddr length : UInt32) : Bool :=
  stage8aRegionInHalfOpenRange startAddr length futureHeapReservedStart
    futureHeapReservedEndExclusive

def stage8aIsRegionInFutureMappingReserved (startAddr length : UInt32) : Bool :=
  stage8aRegionInHalfOpenRange startAddr length futureMappingReservedStart
    futureMappingReservedEndExclusive

def stage8aClassifyAddr (virtualAddr : UInt32) : RegionClass :=
  if stage8aIsAddrInActiveIdentity virtualAddr then .activeIdentity
  else if stage8aIsAddrInFutureHeapReserved virtualAddr then .futureHeapReserved
  else if stage8aIsAddrInFutureMappingReserved virtualAddr then .futureMappingReserved
  else .unclassified

def stage8aValidatePolicy : Bool :=
  if !stage8aIs4kAligned activeIdentityStart || !stage8aIs4kAligned activeIdentityEndExclusive ||
      !stage8aIs4kAligned futureHeapReservedStart ||
      !stage8aIs4kAligned futureHeapReservedEndExclusive ||
      !stage8aIs4kAligned futureMappingReservedStart ||
      !stage8aIs4kAligned futureMappingReservedEndExclusive then false
  else if activeIdentityStart ≠ 0x00000000 ∨ activeIdentityEndExclusive ≠ 0x00400000 then false
  else if activeIdentityEndExclusive ≤ activeIdentityStart ∨
      futureHeapReservedEndExclusive ≤ futureHeapReservedStart ∨
      futureMappingReservedEndExclusive ≤ futureMappingReservedStart then false
  else if futureHeapReservedStart < activeIdentityEndExclusive ∨
      futureMappingReservedStart < futureHeapReservedEndExclusive then false
  else true

theorem addrInHalfOpenRange_iff {addr rangeStart rangeEndExclusive : UInt32} :
    stage8aAddrInHalfOpenRange addr rangeStart rangeEndExclusive = true ↔
      rangeStart.toNat ≤ addr.toNat ∧ addr.toNat < rangeEndExclusive.toNat := by
  simp [stage8aAddrInHalfOpenRange, UInt32.le_iff_toNat_le, UInt32.lt_iff_toNat_lt]

theorem isAddrInFutureHeapReserved_iff (addr : UInt32) :
    stage8aIsAddrInFutureHeapReserved addr = true ↔
      0x400000 ≤ addr.toNat ∧ addr.toNat < 0x800000 :=
  addrInHalfOpenRange_iff

theorem isAddrInFutureMappingReserved_iff (addr : UInt32) :
    stage8aIsAddrInFutureMappingReserved addr = true ↔
      0x800000 ≤ addr.toNat ∧ addr.toNat < 0x1000000 :=
  addrInHalfOpenRange_iff

theorem validatePolicy_eq : stage8aValidatePolicy = true := by decide

end VmmLayout
