import DistributedVector.Session.Basic
import DistributedVector.Vector.Transfer

/-!
# Making vectors

A vector is made for a number of elements or from host data, on given devices. Requests are checked
before anything is allocated: devices, shape and amount of host data, element type, boundaries. Then
every device with elements gets its buffer, and host data is uploaded.

## Main definitions

* `TypeRequest`, `VectorRequest`
* `Vector.create` — a new vector
-/

namespace DistributedVector

/-- The element type asked for. -/
inductive TypeRequest
  /-- the type of the host data, or single-precision numbers -/
  | unspecified
  | named (name : String)
  | exact (type : ElementType)

/-- The element type that a request stands for. -/
def TypeRequest.resolve (r : TypeRequest) (host : Option HostData) : Except ExprFault DataType :=
  match r with
  | .unspecified => .ok ((host.map (·.type)).getD (.element .float32))
  | .named name => DataType.named (some name)
  | .exact t => .ok (.element t)

/-- What a new vector is to be. -/
structure VectorRequest where
  devices : List DeviceId
  size : Int
  host : Option HostData
  type : TypeRequest
  access : Access
  session : SessionId
  /-- boundaries that override the strategy of the session -/
  partition : Option (List Int)

namespace Vector

/-- Shards of the given lengths, with a buffer for each device that has elements. -/
def allocate {σ : Type} (type : ElementType) (access : Access) :
    List (DeviceId × Nat) → Task σ (List Shard)
  | [] => return []
  | (d, n) :: rest => do
    let buffer ←
      if n = 0 then pure none
      else some <$> issue (Program.ask (.allocate d n type access))
    return ⟨d, n, buffer, none⟩ :: (← allocate type access rest)

/-- The boundaries of a new vector: those asked for, or those of a strategy; without elements no
strategy is asked. -/
def boundariesFor (partition : Int → List DeviceId → Task Session (List Int)) (r : VectorRequest) :
    Task Session (List Int) := do
  match r.partition with
  | some part =>
    orFault .partition (validatePartition part r.size r.devices.length)
    return part
  | none =>
    if r.size = 0 then return List.replicate (r.devices.length + 1) 0
    else partition r.size r.devices

/-- The element type of a new vector, which devices have to support. -/
def typeFor (r : VectorRequest) : Except ExprFault ElementType := do
  (← r.type.resolve r.host).supported

/-- Refuses requests without devices, for a negative number of elements or with too little host
data. -/
def checkRequest (r : VectorRequest) : Except VectorFault Unit :=
  if r.devices.isEmpty then .error .noDevices
  else if r.size < 0 then .error (.negativeSize r.size)
  else
    match r.host with
    | none => .ok ()
    | some data =>
      if data.values.size < r.size then .error (.dataTooShort data.values.size r.size) else .ok ()

/-- Makes a vector, given how partitions are made. -/
def create (partition : Int → List DeviceId → Task Session (List Int)) (r : VectorRequest) :
    Task Session Descriptor := do
  orFault .vector (checkRequest r)
  let type ← orFault .expr (typeFor r)
  let part ← boundariesFor partition r
  let shards ← allocate type r.access (r.devices.zip (lengthsOf part))
  let fresh : Descriptor := ⟨r.session, type, r.access, shards⟩
  match r.host with
  | none => return fresh
  | some data =>
    let (_, filled) ← Task.runOn fresh (write 0 r.size data true)
    return filled

end Vector

end DistributedVector
