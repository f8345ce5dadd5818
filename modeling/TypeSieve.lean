import TypeSieve.Main
import TypeSieve.Matcher.Loose
import TypeSieve.Proofs.Command.InPlace
import TypeSieve.Proofs.Config.FlagsAsValues
import TypeSieve.Proofs.Filter.Account
import TypeSieve.Proofs.Filter.Related
import TypeSieve.Proofs.Model.TidiedModels
import TypeSieve.Proofs.TypeExpr.Derivable
import TypeSieve.Proofs.Command.Announced
import TypeSieve.Proofs.Filter.Lookup
import TypeSieve.Proofs.Filter.Rearranged
import TypeSieve.Proofs.Filter.Undecided
import TypeSieve.Proofs.TypeExpr.ShownAgain
import TypeSieve.Proofs.Matcher.PartialOrder
import TypeSieve.Proofs.Model.Accepted
import TypeSieve.Proofs.SkipTypes.Codec
import TypeSieve.Proofs.Matcher.Anywhere
import TypeSieve.Proofs.Model.MethodRuns
import TypeSieve.Proofs.Model.RepeatedSignatures
import TypeSieve.Proofs.TypeExpr.Canonical
import TypeSieve.Proofs.Config.Precedence
import TypeSieve.Proofs.Model.BuiltMethods
import TypeSieve.Proofs.TypeExpr.Refused
import TypeSieve.Proofs.Model.ShownSignatures
import TypeSieve.Proofs.Filter.Inert
import TypeSieve.Proofs.TypeExpr.Flattened
import TypeSieve.Proofs.Config.Loading
