import RemindiCore.Domain.Evidence
import Mathlib.Algebra.Group.Nat.Defs
import Mathlib.Data.List.Basic

/-!
# Condition adapters

What the adapters share (`triggers/adapters/mod.rs`): the errors, the network policy
of an alias, and the destinations that it denies.
-/

namespace RemindiCore.Triggers

inductive AdapterConfigError where
  | invalid
  | outsideBoundary
  | destinationDenied
deriving DecidableEq, Repr

/-- The administrator's policy for one configured alias. -/
structure NetworkPolicy where
  allowPrivate : Bool
deriving DecidableEq

def NetworkPolicy.publicOnly : NetworkPolicy := { allowPrivate := false }

def NetworkPolicy.allowPrivateForAdmin : NetworkPolicy := { allowPrivate := true }

/-! ## Addresses -/

structure Ipv4Addr where
  a : UInt8
  b : UInt8
  c : UInt8
  d : UInt8
deriving DecidableEq

/-- The eight segments of an address. -/
structure Ipv6Addr where
  s0 : UInt16
  s1 : UInt16
  s2 : UInt16
  s3 : UInt16
  s4 : UInt16
  s5 : UInt16
  s6 : UInt16
  s7 : UInt16
deriving DecidableEq

inductive IpAddr where
  | v4 (address : Ipv4Addr)
  | v6 (address : Ipv6Addr)
deriving DecidableEq

structure SocketAddr where
  ip : IpAddr
  port : UInt16
deriving DecidableEq

namespace Ipv4Addr

def isLoopback (ip : Ipv4Addr) : Bool := ip.a = 127

/-- 10/8, 172.16/12 and 192.168/16. -/
def isPrivate (ip : Ipv4Addr) : Bool :=
  ip.a = 10 || (ip.a = 172 && 16 ≤ ip.b && ip.b ≤ 31) || (ip.a = 192 && ip.b = 168)

def isLinkLocal (ip : Ipv4Addr) : Bool := ip.a = 169 && ip.b = 254

def isMulticast (ip : Ipv4Addr) : Bool := 224 ≤ ip.a && ip.a ≤ 239

def isUnspecified (ip : Ipv4Addr) : Bool := ip = ⟨0, 0, 0, 0⟩

def isBroadcast (ip : Ipv4Addr) : Bool := ip = ⟨255, 255, 255, 255⟩

end Ipv4Addr

namespace Ipv6Addr

/-- `::ffff:a.b.c.d` -/
def toIpv4Mapped (ip : Ipv6Addr) : Option Ipv4Addr :=
  if ip.s0 = 0 ∧ ip.s1 = 0 ∧ ip.s2 = 0 ∧ ip.s3 = 0 ∧ ip.s4 = 0 ∧ ip.s5 = 65535 then
    some ⟨(ip.s6 >>> 8).toUInt8, ip.s6.toUInt8, (ip.s7 >>> 8).toUInt8, ip.s7.toUInt8⟩
  else none

def isLoopback (ip : Ipv6Addr) : Bool := ip = ⟨0, 0, 0, 0, 0, 0, 0, 1⟩

def isUnspecified (ip : Ipv6Addr) : Bool := ip = ⟨0, 0, 0, 0, 0, 0, 0, 0⟩

def isMulticast (ip : Ipv6Addr) : Bool := ip.s0 &&& 0xff00 = 0xff00

end Ipv6Addr

def isIpv6UniqueLocal (ip : Ipv6Addr) : Bool := ip.s0 &&& 0xfe00 = 0xfc00

def isIpv6LinkLocal (ip : Ipv6Addr) : Bool := ip.s0 &&& 0xffc0 = 0xfe80

def deniedV4 (ip : Ipv4Addr) : Bool :=
  ip.isLoopback || ip.isPrivate || ip.isLinkLocal || ip.isMulticast || ip.isUnspecified ||
    ip.isBroadcast || ip = ⟨100, 100, 100, 200⟩

/-- Reject the destinations that are unsafe under the policy. -/
def validateDestination (address : IpAddr) (policy : NetworkPolicy) :
    Except AdapterConfigError Unit :=
  if policy.allowPrivate then .ok ()
  else
    let denied := match address with
      | .v4 ip => deniedV4 ip
      | .v6 ip =>
        match ip.toIpv4Mapped with
        | some mapped => deniedV4 mapped
        | none => ip.isLoopback || ip.isUnspecified || ip.isMulticast || isIpv6UniqueLocal ip ||
            isIpv6LinkLocal ip
    if denied then .error .destinationDenied else .ok ()

/-- All of the addresses pass; the first that does not is the error. -/
def validateAll (policy : NetworkPolicy) : List SocketAddr → Except AdapterConfigError Unit
  | [] => .ok ()
  | address :: addresses => do
    validateDestination address.ip policy
    validateAll policy addresses

theorem validateAll_ok {policy : NetworkPolicy} {addresses : List SocketAddr}
    (h : validateAll policy addresses = .ok ()) :
    ∀ address ∈ addresses, validateDestination address.ip policy = .ok () := by
  induction addresses with
  | nil => exact fun address hmem => (List.not_mem_nil hmem).elim
  | cons first addresses ih =>
    unfold validateAll at h
    cases hfirst : validateDestination first.ip policy with
    | error e =>
      rw [hfirst] at h
      cases h
    | ok _ =>
      rw [hfirst] at h
      rw [List.forall_mem_cons]
      exact ⟨hfirst, ih h⟩

/-- Nonempty, at most 128 bytes, of ASCII letters, digits, dashes, underscores and dots. -/
def validAlias (name : String) : Bool :=
  !name.toList.isEmpty && decide (name.utf8ByteSize ≤ 128) &&
    name.toList.all fun c => c.isAlphanum || c = '-' || c = '_' || c = '.'

/-! ## TCP targets -/

def isControl (c : Char) : Bool := c.toNat < 32 || (127 ≤ c.toNat && c.toNat < 160)

/-- What `TcpTarget::new` checks. -/
def validTcpTarget (host : String) (port : UInt16) : Bool :=
  !(trim host).isEmpty && decide (host.utf8ByteSize ≤ 253) && decide (port ≠ 0) &&
    !host.toList.any isControl

structure TcpTarget where
  host : String
  port : UInt16
  policy : NetworkPolicy
  valid : validTcpTarget host port = true
deriving DecidableEq

def TcpTarget.new (host : String) (port : UInt16) (policy : NetworkPolicy) :
    Except AdapterConfigError TcpTarget :=
  if h : validTcpTarget host port = true then
    .ok { host := host, port := port, policy := policy, valid := h }
  else .error .invalid

/-! ## Paths -/

/-- A path by its components, each of any bytes but the slash. -/
structure PathBuf where
  absolute : Bool
  names : List (List UInt8)
deriving DecidableEq

/-- `..` -/
def parentDir : List UInt8 := [46, 46]

/-- The path is text. -/
def PathBuf.isText (path : PathBuf) : Bool :=
  path.names.all fun name => (String.fromUTF8? ⟨name.toArray⟩).isSome

def PathBuf.startsWith (path root : PathBuf) : Bool :=
  path.absolute = root.absolute && root.names.isPrefixOf path.names

/-- `fs::canonicalize` at one moment. -/
inductive Canonical where
  | resolved (path : PathBuf)
  | notFound
  | failed

abbrev FileSystem := PathBuf → Canonical

/-- What `FileTarget::new` checks. -/
def validFileTarget (path : PathBuf) : Bool := path.absolute && !path.names.contains parentDir

structure FileTarget where
  path : PathBuf
  valid : validFileTarget path = true
deriving DecidableEq

def FileTarget.new (path : PathBuf) : Except AdapterConfigError FileTarget :=
  if h : validFileTarget path = true then .ok { path := path, valid := h } else .error .invalid

/-- The closest ancestor that exists, resolved; `names` are given in reverse. -/
def closestExisting (files : FileSystem) (absolute : Bool) :
    List (List UInt8) → Except AdapterConfigError PathBuf
  | [] =>
    match files { absolute := absolute, names := [] } with
    | .resolved path => .ok path
    | _ => .error .invalid
  | name :: names =>
    match files { absolute := absolute, names := (name :: names).reverse } with
    | .resolved path => .ok path
    | .notFound => closestExisting files absolute names
    | .failed => .error .invalid

def validateContainment (files : FileSystem) (path : PathBuf) (roots : List PathBuf) :
    Except AdapterConfigError Unit :=
  match closestExisting files path.absolute path.names.reverse with
  | .error e => .error e
  | .ok resolved => if roots.any resolved.startsWith then .ok () else .error .outsideBoundary

def canonicalRoot (files : FileSystem) (root : PathBuf) : Except AdapterConfigError PathBuf :=
  match files root with
  | .resolved path => .ok path
  | _ => .error .invalid

end RemindiCore.Triggers
