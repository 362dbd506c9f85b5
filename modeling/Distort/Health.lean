import Distort.Api.Types

/-!
Which storage nodes can be used: the package `rdmahealth`.
-/

namespace Distort.Health

open Go Lib.Kube Api

def readyCondition : Str := "Ready"

/-- 45 s and 5 s, in nanoseconds. -/
def freshnessWindow : ℤ := 45 * 1000000000
def maxFutureSkew : ℤ := 5 * 1000000000

def heartbeatIsFresh (lastHeartbeat : Option ℤ) (now : ℤ) : Bool :=
  match lastHeartbeat with
  | none => false
  | some t => now - t ≤ freshnessWindow && -maxFutureSkew ≤ now - t

variable [StdLib]

def parseUsableIP (address : Str) : Except Err IP :=
  match StdLib.parseIP address with
  | some ip =>
    if !ip.isGlobalUnicast || ip.isLoopback || ip.isUnspecified || ip.isMulticast || ip.isLinkLocalUnicast ||
        ip.isLinkLocalMulticast then
      .error (.errorf "%q is not a routable unicast IP address" [.str address])
    else .ok ip
  | none => .error (.errorf "%q is not a routable unicast IP address" [.str address])

def validate (node : RDMAStorageNode) (now : ℤ) : Except Err Unit :=
  if !isStatusConditionTrue node.status.conditions readyCondition then
    .error (.errorf "RDMAStorageNode %s is not Ready" [.str node.metadata.name])
  else if !heartbeatIsFresh node.status.lastHeartbeatTime now then
    .error (.errorf "RDMAStorageNode %s heartbeat is stale" [.str node.metadata.name])
  else
    match parseUsableIP node.spec.rdmaIP with
    | .error _ => .error (.errorf "RDMAStorageNode %s has no usable RDMA IP" [.str node.metadata.name])
    | .ok _ =>
      if node.spec.transport ≠ .roCEv2 ∧ node.spec.transport ≠ .infiniBand then
        .error (.errorf "RDMAStorageNode %s does not advertise an RDMA transport" [.str node.metadata.name])
      else .ok ()

end Distort.Health
