import SMAgent.Base.Float64

/-!
# Tenants

The tenant messages of `pkg/pb/synthetic_monitoring/checks.proto` as gogo-protobuf generates
them, with all their fields: tenants are compared field by field.
-/

namespace SMAgent.Pb
open SMAgent.Base

/-- `TenantStatus`, `checks.pb.go:71-76`. -/
inductive TenantStatus where
  | active | disabled
  | unrecognized (v : Int32)
  deriving DecidableEq, Repr

/-- `LabelMode`, `checks.pb.go:96-103`. -/
inductive LabelMode where
  | prefixed | dualWrite | unprefixed
  | unrecognized (v : Int32)
  deriving DecidableEq, Repr

/-- `RemoteInfo`, `checks.pb.go:1072-1077`. -/
@[ext]
structure RemoteInfo where
  name : GoString := []
  url : GoString := []
  username : GoString := []
  password : GoString := []
  deriving DecidableEq, Repr

/-- `TenantLimits`, `checks.pb.go:939-945`. -/
@[ext]
structure TenantLimits where
  maxChecks : Int := 0
  maxScriptedChecks : Int := 0
  maxMetricLabels : Int := 0
  maxLogLabels : Int := 0
  maxBrowserChecks : Int := 0
  deriving DecidableEq, Repr

/-- `SecretStore`, `checks.pb.go:981-985`. -/
@[ext]
structure SecretStore where
  url : GoString := []
  token : GoString := []
  expiry : Float64 := Float64.zero
  deriving DecidableEq, Repr

/-- `Tenant`, `checks.pb.go:1021-1035`. -/
@[ext]
structure Tenant where
  id : Int := 0
  orgId : Int := 0
  metricsRemote : Option RemoteInfo := none
  eventsRemote : Option RemoteInfo := none
  stackId : Int := 0
  status : TenantStatus := .active
  reason : GoString := []
  limits : Option TenantLimits := none
  costAttributionLabels : List GoString := []
  labelMode : LabelMode := .prefixed
  created : Float64 := Float64.zero
  modified : Float64 := Float64.zero
  secretStore : Option SecretStore := none
  deriving DecidableEq, Repr

end SMAgent.Pb
