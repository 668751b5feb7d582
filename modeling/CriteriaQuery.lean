import CriteriaQuery.Main
import CriteriaQuery.Plan.Json
import CriteriaQuery.Proofs.Execution.Extension
import CriteriaQuery.Proofs.Execution.Truth
import CriteriaQuery.Proofs.Execution.Executable
import CriteriaQuery.Proofs.Plan.Action
import CriteriaQuery.Proofs.Plan.Aliases
import CriteriaQuery.Proofs.Join.Tree
import CriteriaQuery.Proofs.Join.Growth
import CriteriaQuery.Proofs.Join.Reach
import CriteriaQuery.Proofs.Join.Choice
import CriteriaQuery.Proofs.Join.Span
import CriteriaQuery.Proofs.Join.Choices
import CriteriaQuery.Proofs.Restriction.Groups
import CriteriaQuery.Proofs.Restriction.Meaning
import CriteriaQuery.Proofs.Handler.Compilation
import CriteriaQuery.Proofs.Handler.RootRows
import CriteriaQuery.Proofs.Handler.Running
import CriteriaQuery.Proofs.Handler.Filter
import CriteriaQuery.Proofs.Handler.Meaning
import CriteriaQuery.Proofs.Join.RowFrom
import CriteriaQuery.Proofs.Handler.Agreement
import CriteriaQuery.Proofs.Handler.Acceptance
import CriteriaQuery.Proofs.Handler.Joins
import CriteriaQuery.Proofs.Restriction.Support
import CriteriaQuery.Proofs.Handler.Placement
import CriteriaQuery.Proofs.Handler.Success
import CriteriaQuery.Proofs.Handler.Copies
import CriteriaQuery.Proofs.Handler.Restricting
import CriteriaQuery.Proofs.Handler.Conjunction
import CriteriaQuery.Proofs.Like.Scan
import CriteriaQuery.Proofs.Handler.Inert
import CriteriaQuery.Proofs.Execution.Tuples
import CriteriaQuery.Proofs.People.Query
import CriteriaQuery.Proofs.Like.Literal
import CriteriaQuery.Proofs.Like.Lowercase
import CriteriaQuery.Proofs.Restriction.Occurrence
import CriteriaQuery.Proofs.Restriction.IgnoringCase
import CriteriaQuery.Proofs.Execution.KeyOrder
import CriteriaQuery.Proofs.Execution.OrderBy
import CriteriaQuery.Proofs.Handler.Skeleton
import CriteriaQuery.Proofs.Execution.Loading
import CriteriaQuery.Proofs.Handler.OnRoot
import CriteriaQuery.Proofs.People.Search
import CriteriaQuery.Proofs.People.Partition
import CriteriaQuery.Proofs.Calendar.Age
import CriteriaQuery.Proofs.People.Underage
import CriteriaQuery.Proofs.Join.Requests
import CriteriaQuery.Proofs.Execution.Inverse
import CriteriaQuery.Proofs.Plan.Text
import CriteriaQuery.Proofs.Execution.Comparison
