import BaseThree.Main
import BaseThree.Session
import BaseThree.Grammar
import BaseThree.Parentheses
import BaseThree.Token
import BaseThree.Proofs.Character
import BaseThree.Proofs.Evaluation.Ending
import BaseThree.Proofs.Scanner
import BaseThree.Proofs.Scanner.Command
import BaseThree.Proofs.Reading
import BaseThree.Proofs.Numeral
import BaseThree.Proofs.Reading.Evaluation
import BaseThree.Proofs.Reading.Trees
import BaseThree.Proofs.Reading.Outline
import BaseThree.Proofs.Reading.Soundness
import BaseThree.Proofs.Reading.Completeness
import BaseThree.Proofs.Expression.Value
import BaseThree.Proofs.Expression.Prefix
import BaseThree.Proofs.Expression.Diagnosis
import BaseThree.Proofs.Evaluation.Relation
import BaseThree.Proofs.Evaluation.Refinement
import BaseThree.Proofs.Expression.Range
import BaseThree.Proofs.Reading.Places
import BaseThree.Proofs.Token
import BaseThree.Proofs.Reading.Tokens
import BaseThree.Proofs.Expression.Layout
import BaseThree.Proofs.Expression.Group
import BaseThree.Proofs.Evaluation.Lookahead
import BaseThree.Proofs.Expression.FirstFault
import BaseThree.Proofs.Parentheses
import BaseThree.Proofs.Reading.Stop
import BaseThree.Proofs.Expression.Arithmetic
import BaseThree.Proofs.Reading.Limit
import BaseThree.Proofs.Expression.Nesting
import BaseThree.Proofs.Settings
import BaseThree.Proofs.Evaluation.Depth
import BaseThree.Proofs.Session
import BaseThree.Proofs.Expression.Numeral
import BaseThree.Proofs.Expression.Size
import BaseThree.Proofs.Evaluation.Safety
import BaseThree.Proofs.Evaluation.Calls
import BaseThree.Proofs.Quoted
import BaseThree.Proofs.Fault
import BaseThree.Proofs.Evaluation.Log
import BaseThree.Proofs.CommandLine.Options
import BaseThree.Proofs.CommandLine.Answer
import BaseThree.Proofs.CommandLine.Input
import BaseThree.Proofs.Quotient
import BaseThree.Proofs.Evaluation.Division
import BaseThree.Proofs.Expression.Trailing
import BaseThree.Proofs.Numeral.Canonical
import BaseThree.Proofs.CommandLine.Consistency
import BaseThree.Proofs.Evaluation.Numeral
import BaseThree.Proofs.CommandLine.Log
