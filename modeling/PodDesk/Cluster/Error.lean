/-!
# Errors of the cluster

A call to the cluster fails because the API server refuses it, with a status, or because no answer
comes back.
-/

namespace PodDesk

/-- Why a call to the cluster failed. -/
inductive ClusterError where
  /-- The API server answered with a failure status. -/
  | api (code : UInt16) (reason message : String)
  /-- No answer came back that could be understood. -/
  | transport (cause : String)
  deriving DecidableEq, Repr, Inhabited

namespace ClusterError

/-- `notFound message` says that the object does not exist. -/
def notFound (message : String) : ClusterError :=
  .api 404 "NotFound" message

/-- `alreadyExists message` says that an object with the name exists. -/
def alreadyExists (message : String) : ClusterError :=
  .api 409 "AlreadyExists" message

/-- `ClusterError.code?` is the code of the status, if the API server answered. -/
def code? : ClusterError → Option UInt16
  | api code _ _ => some code
  | transport _ => none

/-- `e.isNotFound` says whether the API server says that something does not exist; only the code
counts. -/
def isNotFound (e : ClusterError) : Bool :=
  e.code? == some 404

/-- `e.isConflict` says whether the API server sees a conflict; only the code counts. -/
def isConflict (e : ClusterError) : Bool :=
  e.code? == some 409

/-- `ClusterError.display` shows the error on one line. -/
def display : ClusterError → String
  | api code reason message => reason ++ " (" ++ toString code.toNat ++ "): " ++ message
  | transport cause => "cluster request failed: " ++ cause

end ClusterError

end PodDesk
