import Drv.Net.DnsWire

/-!
# Answers of the local resolver

The resolver looks in the response to its query for the addresses of a
name: those of the asked kind at the end of the CNAME chain of the name.
Names that the DNS library takes for equal are one name here.
-/

namespace Drv.Net.Ingress

open DnsWire (IpAddr maxAddresses)

inductive RecordType where
  | a | aaaa | other

inductive RData (N : Type) where
  | a (ip : List.Vector UInt8 4)
  | aaaa (ip : List.Vector UInt8 16)
  | cname (target : N)
  | other

structure Record (N : Type) where
  name : N
  data : RData N

variable {N : Type} [DecidableEq N] (answers : List (Record N)) (kind : RecordType)

/-- The target of the first CNAME of an owner. -/
def cname (owner : N) : Option N :=
  answers.findSome? fun rr =>
    if rr.name ≠ owner then none
    else match rr.data with
      | .cname target => some target
      | _ => none

/-- The addresses of the kind that an owner has. -/
def owned (owner : N) : List IpAddr :=
  answers.filterMap fun rr =>
    if rr.name ≠ owner then none
    else match rr.data, kind with
      | .a ip, .a => some (.v4 ip)
      | .aaaa ip, .aaaa => some (.v6 ip)
      | _, _ => none

/-- The rounds of the loop that are left. -/
def follow : Nat → N → List N → List IpAddr
  | 0, _, _ => []
  | rounds + 1, owner, visited =>
    if owner ∈ visited then []
    else match cname answers owner with
      | some target => follow rounds target (visited ++ [owner])
      | none => (owned answers kind owner).take maxAddresses

def addresses (name : N) : List IpAddr := follow answers kind 16 name []

inductive ResponseCode where
  | noError | nxDomain | other
  deriving DecidableEq

structure Response (N : Type) where
  code : ResponseCode
  answers : List (Record N)

/-- What `nss_client` makes of the responses for both families. -/
def nssClient (name : N) (a aaaa : Response N) : DnsWire.Checked DnsWire.Response :=
  let (ips, temporary) := [(.a, a), (.aaaa, aaaa)].foldl (fun (ips, temporary) (kind, response) =>
    match response.code with
    | .noError => (ips ++ addresses response.answers kind name, temporary)
    | .nxDomain => (ips, temporary)
    | .other => (ips, true)) ([], false)
  let ips := ips.take maxAddresses
  DnsWire.response (if ips ≠ [] then DnsWire.ok else if temporary then DnsWire.temporary
    else DnsWire.notFound) ips

end Drv.Net.Ingress
