import KBucket.Foundation
import KBucket.Managers.Http

/-!
# `HttpUrlTaskManager.swift`

A task is the request that it sends and the closure that `URLSession` calls when it is done. The
closure calls `onHttpReceive`; `Callback` holds the arguments, and a closure returns the calls
that it makes. The addresses are those of `ContextUtils`, which `URL(string:)` takes.
-/

namespace KBucket

structure URLRequest where
  url : String
  httpMethod : String := "GET"
  headers : List (String × String) := []
  httpBody : Data := []
  deriving DecidableEq, Repr

namespace URLRequest

def lowercased (field : String) : List Char := field.toList.map Char.toLower

/-- Names of header fields are compared without regard to case. -/
def isField (field : String) (header : String × String) : Bool :=
  lowercased header.1 == lowercased field

/-- `request.setValue(value, forHTTPHeaderField: field)`. -/
def setValue (request : URLRequest) (value field : String) : URLRequest :=
  { request with
    headers := request.headers.filter (fun header => !isField field header) ++ [(field, value)] }

/-- `request.value(forHTTPHeaderField: field)`. -/
def value (request : URLRequest) (field : String) : Option String :=
  (request.headers.find? (isField field)).map Prod.snd

@[simp] theorem value_httpBody (request : URLRequest) (httpBody : Data) (field : String) :
    ({ request with httpBody } : URLRequest).value field = request.value field := rfl

@[simp] theorem value_setValue (request : URLRequest) (value field : String) :
    (request.setValue value field).value field = some value := by
  have hnone : (request.headers.filter fun header => !isField field header).find?
      (isField field) = none := by
    refine List.find?_eq_none.mpr fun header hheader => ?_
    simpa using (List.mem_filter.mp hheader).2
  rw [URLRequest.value, setValue, List.find?_append, hnone]
  simp [isField]

/-- Setting one field leaves the others. -/
theorem value_setValue_of_ne (request : URLRequest) (value : String) {field other : String}
    (h : lowercased field ≠ lowercased other) :
    (request.setValue value field).value other = request.value other := by
  have hfilter : (request.headers.filter fun header => !isField field header).find?
      (isField other) = request.headers.find? (isField other) := by
    rw [List.find?_filter]
    congr 1
    funext header
    by_cases hother : lowercased header.1 = lowercased other
    · simp [isField, hother, Ne.symm h]
    · simp [isField, hother]
  rw [URLRequest.value, setValue, List.find?_append, hfilter, URLRequest.value]
  simp [isField, h]

end URLRequest

inductive URLResponse where
  | http (statusCode : Int)
  | other
  deriving DecidableEq, Repr

/-- What `URLSession` hands to a closure: a transport error and nothing else, or an HTTP response
    with its data. -/
structure Completion where
  data : Option Data
  response : Option URLResponse
  error : Option String
  delivered : (error.isSome ∧ data = none ∧ response = none) ∨
    (error = none ∧ data.isSome ∧ ∃ statusCode, response = some (.http statusCode))

/-- A call of `onHttpReceive`. -/
structure Callback where
  type : Int
  actionId : Int
  data : Data
  deriving DecidableEq, Repr

structure DataTask where
  request : URLRequest
  completionHandler : Option Data → Option URLResponse → Except Trap (List Callback)

/-- `(response as? HTTPURLResponse)?.statusCode == 200`. -/
def isOk : Option URLResponse → Bool
  | some (.http statusCode) => statusCode == 200
  | _ => false

structure HttpUrlTaskManager where
  mURl : String
  isPost : Bool
  mId : Int

namespace HttpUrlTaskManager

/-- The closure of all the tasks. -/
def completionHandler (manager : HttpUrlTaskManager) (data : Option Data)
    (response : Option URLResponse) : Except Trap (List Callback) := do
  if !isOk response then
    let data ← unwrap data
    return [{ type := ConstHTTP.HTTP_FAIL, actionId := manager.mId, data }]
  else
    let data ← unwrap data
    return [{ type := ConstHTTP.HTTP_OK, actionId := manager.mId, data }]

def actionTask (manager : HttpUrlTaskManager) : DataTask where
  request := { url := manager.mURl }
  completionHandler := manager.completionHandler

def actionTaskWithData (manager : HttpUrlTaskManager) (data : String) : DataTask :=
  if manager.isPost then
    let request := URLRequest.setValue { url := manager.mURl }
      "application/x-www-form-urlencoded" "Content-Type"
    { request := { request with httpMethod := "POST", httpBody := utf8 data }
      completionHandler := manager.completionHandler }
  else
    { request := { url := manager.mURl }, completionHandler := manager.completionHandler }

end HttpUrlTaskManager
end KBucket
