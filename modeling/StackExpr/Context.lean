import StackExpr.Json
/-!
# Where a template is evaluated

The context of an evaluation: account, region, partition and the parameter values given by the user.
`bindings` are the names that a reference finds in it: the four pseudo parameters, overridden or
followed by the parameters.
-/

namespace StackExpr

/-- The partition a region belongs to. -/
def partitionOf (region : String) : String :=
  let startsWith (start : String) := start.toList.isPrefixOf region.toList
  if startsWith "cn-" then "aws-cn"
  else if startsWith "us-gov-" then "aws-us-gov"
  else if startsWith "us-isob-" then "aws-iso-b"
  else if startsWith "us-iso-" then "aws-iso"
  else "aws"

/-- Where and with which parameters a template is evaluated. -/
structure Context where
  account : String
  region : String
  partition : String
  parameters : Dict Json := []

namespace Context

/-- The context of an account in a region, in the partition of the region. -/
def ofRegion (account region : String) : Context := ⟨account, region, partitionOf region, []⟩

/-- The context with another partition. -/
def withPartition (c : Context) (partition : String) : Context := { c with partition }

/-- The context with a value for a parameter. -/
def withParameter (c : Context) (name : String) (value : Json) : Context :=
  { c with parameters := c.parameters.insert name value }

/-- The same place with other parameters. -/
def withParameters (c : Context) (parameters : Dict Json) : Context := { c with parameters }

/-- The names of the pseudo parameters that a context binds, with their values. -/
def pseudoParameters (c : Context) (stackName : String) : Dict Json :=
  [("AWS::AccountId", .string c.account), ("AWS::Region", .string c.region),
    ("AWS::Partition", .string c.partition), ("AWS::StackName", .string stackName)]

/-- The names bound in the context of a stack. -/
def bindings (c : Context) (stackName : String) : Dict Json :=
  (c.pseudoParameters stackName).insertAll c.parameters

end Context

/-- The pseudo parameter that only the cloud can answer. -/
def urlSuffixName : String := "AWS::URLSuffix"

end StackExpr
