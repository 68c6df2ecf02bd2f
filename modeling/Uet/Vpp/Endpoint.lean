import Mathlib

/-!
# Endpoint registrations

The table of endpoint keys that the plugin looks destinations up in, and `uet_endpoint_update`,
which adds a key for an application or takes it out. A key belongs to the namespace of the
application that registered it. The hash table is the list of its entries; whether it has memory
for an entry comes from outside.
-/

namespace Uet.Vpp

inductive Errno where
  | einval | enoent | eaddrinuse | enomem | eperm | eio | eagain | eproto | etimedout | econnreset
  | enxio | ebusy | emsgsize
  deriving DecidableEq, Repr

inductive Status where
  | ok
  | err (e : Errno)
  deriving DecidableEq, Repr

/-- `UET_VPP_SVM_CLIENT_NAMESPACE_MAX`. -/
def clientNamespaceMax : Nat := 1023

/-- `uet_vpp_svm_endpoint_key_t`. -/
structure EndpointKey where
  ipVersion : BitVec 8
  absolute : BitVec 8
  pidOnFep : BitVec 16
  resourceIndex : BitVec 16
  reserved0 : BitVec 16
  jobId : BitVec 32
  ipAddress : Fin 16 → BitVec 8
  reserved1 : BitVec 32
  deriving DecidableEq

/-- `uet_vpp_svm_control_request_t`. -/
structure ControlRequest where
  requestId : BitVec 64
  operation : BitVec 16
  reserved0 : BitVec 16
  reserved1 : BitVec 32
  endpoint : EndpointKey
  reserved2 : BitVec 64 × BitVec 64
  deriving DecidableEq

/-- `UET_VPP_SVM_CONTROL_ENDPOINT_ADD`. -/
def controlEndpointAdd : BitVec 16 := 1
/-- `UET_VPP_SVM_CONTROL_ENDPOINT_DEL`. -/
def controlEndpointDel : BitVec 16 := 2

/-- The part of `uet_main_t` that registrations use: the application of each namespace, and
the keys with their namespaces. -/
structure Plugin where
  clientByNamespace : Nat → Option Nat
  endpointHash : List (EndpointKey × Nat)

def controlRequestInvalid (ns : Nat) (q : ControlRequest) : Bool :=
  let e := q.endpoint
  ns == 0 || decide (clientNamespaceMax < ns) || q.requestId == 0 || q.reserved0 != 0 ||
    q.reserved1 != 0 || q.reserved2.1 != 0 || q.reserved2.2 != 0 ||
    (e.ipVersion != 4 && e.ipVersion != 6) || decide (1 < e.absolute.toNat) ||
    decide (0x0fff < e.pidOnFep.toNat) || decide (0x0fff < e.resourceIndex.toNat) ||
    decide (0x00ffffff < e.jobId.toNat) || e.reserved0 != 0 || e.reserved1 != 0 ||
    (e.absolute != 0 && e.jobId != 0) ||
    (e.ipVersion == 4 && (List.finRange 16).any fun i => decide (4 ≤ i.val) && e.ipAddress i != 0)

/-- `uet_endpoint_update`; `fails` says that the hash table could not take the change. -/
def endpointUpdate (um : Plugin) (ns : Nat) (q : ControlRequest) (fails : Bool) : Plugin × Status :=
  if controlRequestInvalid ns q then (um, .err .einval)
  else
    match um.clientByNamespace ns with
    | none => (um, .err .enoent)
    | some _ =>
      if q.operation = controlEndpointAdd then
        match um.endpointHash.lookup q.endpoint with
        | some owner => if owner = ns then (um, .ok) else (um, .err .eaddrinuse)
        | none =>
          if fails then (um, .err .enomem)
          else ({ um with endpointHash := (q.endpoint, ns) :: um.endpointHash }, .ok)
      else if q.operation = controlEndpointDel then
        match um.endpointHash.lookup q.endpoint with
        | none => (um, .err .enoent)
        | some owner =>
          if owner ≠ ns then (um, .err .eperm)
          else if fails then (um, .err .eio)
          else
            ({ um with endpointHash := um.endpointHash.filter fun kv => kv.1 ≠ q.endpoint }, .ok)
      else (um, .err .einval)

end Uet.Vpp
