/-!
# Apis and error codes

Requests and responses name their api by a number, and responses report a failed lookup
by a number too. Both are small closed sets here: the apis that the broker serves, and
the errors that it answers with.
-/

namespace LogBroker

/-! ## Apis -/

/-- The apis that the broker serves. -/
inductive ApiKey where
  /-- batches of a partition's log, by topic id -/
  | fetch
  /-- the apis themselves and their versions -/
  | apiVersions
  /-- the id and the partitions of a topic, by name -/
  | describeTopicPartitions
deriving DecidableEq, Repr

namespace ApiKey

/-- The number of an api on the wire. -/
def code : ApiKey → Int16
  | fetch => 1
  | apiVersions => 18
  | describeTopicPartitions => 75

/-- The api with this number, if the broker serves it. -/
def ofCode? (code : Int16) : Option ApiKey :=
  if code = 1 then some fetch
  else if code = 18 then some apiVersions
  else if code = 75 then some describeTopicPartitions
  else none

/-- The name of an api. -/
def name : ApiKey → String
  | fetch => "Fetch"
  | apiVersions => "ApiVersions"
  | describeTopicPartitions => "DescribeTopicPartitions"

@[simp] theorem ofCode?_code (api : ApiKey) : ofCode? api.code = some api := by
  cases api <;> rfl

/-- A number names an api only if it is the number of that api. -/
theorem code_of_ofCode? {code : Int16} {api : ApiKey} (h : ofCode? code = some api) :
    api.code = code := by
  unfold ofCode? at h
  split at h
  · cases h; subst_vars; rfl
  · split at h
    · cases h; subst_vars; rfl
    · split at h
      · cases h; subst_vars; rfl
      · cases h

end ApiKey

/-! ## Error codes -/

/-- What a response can say about a part of the request. -/
inductive ErrorCode where
  /-- it was answered -/
  | none
  /-- no topic has the requested name -/
  | unknownTopicOrPartition
  /-- the request's version is not served -/
  | unsupportedVersion
  /-- no topic has the requested id -/
  | unknownTopicId
deriving DecidableEq, Repr

/-- The number of an error on the wire. -/
def ErrorCode.code : ErrorCode → Int16
  | none => 0
  | unknownTopicOrPartition => 3
  | unsupportedVersion => 35
  | unknownTopicId => 100

end LogBroker
