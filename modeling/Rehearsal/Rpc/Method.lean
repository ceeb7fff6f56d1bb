/-!
# Methods

The sixteen methods of the service and the paths they are called under.
-/

namespace Rehearsal.Rpc

/-- A method of the service. -/
inductive Method where
  | echo
  | expand
  | collect
  | chat
  | timeout
  | setupRetry
  | retry
  | longrunning
  | pagination
  | parameterFlattening
  | resourceName
  | listOperations
  | getOperation
  | deleteOperation
  | cancelOperation
  | waitOperation
  deriving DecidableEq, Repr

namespace Method

/-- Every method. -/
def all : List Method :=
  [echo, expand, collect, chat, timeout, setupRetry, retry, longrunning, pagination,
    parameterFlattening, resourceName, listOperations, getOperation, deleteOperation,
    cancelOperation, waitOperation]

/-- The path of a method. -/
def path : Method → String
  | echo => "/google.showcase.v1.Showcase/Echo"
  | expand => "/google.showcase.v1.Showcase/Expand"
  | collect => "/google.showcase.v1.Showcase/Collect"
  | chat => "/google.showcase.v1.Showcase/Chat"
  | timeout => "/google.showcase.v1.Showcase/Timeout"
  | setupRetry => "/google.showcase.v1.Showcase/SetupRetry"
  | retry => "/google.showcase.v1.Showcase/Retry"
  | longrunning => "/google.showcase.v1.Showcase/Longrunning"
  | pagination => "/google.showcase.v1.Showcase/Pagination"
  | parameterFlattening => "/google.showcase.v1.Showcase/ParameterFlattening"
  | resourceName => "/google.showcase.v1.Showcase/ResourceName"
  | listOperations => "/google.longrunning.Operations/ListOperations"
  | getOperation => "/google.longrunning.Operations/GetOperation"
  | deleteOperation => "/google.longrunning.Operations/DeleteOperation"
  | cancelOperation => "/google.longrunning.Operations/CancelOperation"
  | waitOperation => "/google.longrunning.Operations/WaitOperation"

/-- The method called under a path. -/
def ofPath? (path : String) : Option Method := all.find? fun method => method.path == path

theorem ofPath?_path (method : Method) : ofPath? method.path = some method := by
  cases method <;> decide

end Method

end Rehearsal.Rpc
