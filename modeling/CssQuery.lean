import CssQuery.Text.CharClass
import CssQuery.Text.ClassRuns
import CssQuery.Text.Integer
import CssQuery.Text.Search
import CssQuery.Text.Space
import CssQuery.Text.LetterCase
import CssQuery.Error
import CssQuery.Token.Basic
import CssQuery.Token.Bounded
import CssQuery.Token.Name
import CssQuery.Token.Number
import CssQuery.Token.Pattern
import CssQuery.Equation.Basic
import CssQuery.Equation.Parser
import CssQuery.Equation.Table
import CssQuery.Dom.Basic
import CssQuery.Dom.Links
import CssQuery.Dom.Tally
import CssQuery.Dom.Traversal
import CssQuery.Formula.Basic
import CssQuery.Formula.Position
import CssQuery.PseudoClass.Structural
import CssQuery.PseudoClass.TextSearch
import CssQuery.Selector.Attribute
import CssQuery.Selector.Basic
import CssQuery.Selector.Specificity
import CssQuery.Selector.Matching
import CssQuery.Config
import CssQuery.Engine
import CssQuery.Scanner.Basic
import CssQuery.Scanner.Command
import CssQuery.Session.Basic
import CssQuery.Session.Command
import CssQuery.Proofs.Formula.Coverage
import CssQuery.Proofs.Formula.Linear
import CssQuery.Proofs.Formula.History
import CssQuery.Proofs.Formula.Membership
import CssQuery.Proofs.Dom.Linked
import CssQuery.Proofs.Dom.Moves
import CssQuery.Proofs.Dom.Preorder
import CssQuery.Proofs.Dom.Tags
import CssQuery.Proofs.Dom.Built
import CssQuery.Proofs.Formula.Steady
import CssQuery.Proofs.Selector.Meaning
import CssQuery.Proofs.Selector.Staged
import CssQuery.Proofs.Selector.Compiled
import CssQuery.Proofs.Token.Locality
import CssQuery.Proofs.Selector.Grammar
import CssQuery.Proofs.Selector.Lexing
import CssQuery.Proofs.Selector.Acceptance
import CssQuery.Proofs.Selector.Reading
import CssQuery.Proofs.Selector.Recognition
import CssQuery.Proofs.PseudoClass.TextSearch
import CssQuery.Proofs.Dom.Walks
import CssQuery.Proofs.Selector.Chain
import CssQuery.Proofs.Formula.Walk
import CssQuery.Proofs.Selector.Enumeration
import CssQuery.Proofs.Formula.Agreement
import CssQuery.Proofs.Selector.Alike
import CssQuery.Proofs.Selector.Agreement
import CssQuery.Proofs.Session.Uncached
import CssQuery.Proofs.Session.Queries
import CssQuery.Proofs.Session.Transparent
import CssQuery.Proofs.Dom.Descendants
import CssQuery.Proofs.Selector.Negation
import CssQuery.Proofs.Engine.Selection
import CssQuery.Proofs.Engine.Negation
import CssQuery.Proofs.Selector.Grouping
import CssQuery.Proofs.Engine.Grouping
import CssQuery.Proofs.Token.Spans
import CssQuery.Proofs.Token.Balanced
import CssQuery.Proofs.Selector.AttributeBody
import CssQuery.Proofs.Selector.Quoting
import CssQuery.Proofs.Formula.Recency
import CssQuery.Proofs.Formula.Store
import CssQuery.Proofs.Dom.ListEdits
import CssQuery.Proofs.Formula.Questions
import CssQuery.Proofs.Formula.Turning
import CssQuery.Proofs.Scanner.Operations
import CssQuery.Proofs.Formula.Failing
import CssQuery.Proofs.Selector.ErrorPlaces
import CssQuery.Proofs.Formula.Rank
import CssQuery.Proofs.Engine.Positions
import CssQuery.Proofs.Equation.Grammar
import CssQuery.Proofs.Equation.Lexing
import CssQuery.Proofs.Equation.Acceptance
import CssQuery.Proofs.Dom.TagTable
import CssQuery.Proofs.Formula.Flat
import CssQuery.Proofs.Equation.Exactness
import CssQuery.Proofs.PseudoClass.TextNodes
import CssQuery.Proofs.Selector.Comparison
import CssQuery.Proofs.Engine.Shorthand
import CssQuery.Proofs.Token.LongestMatch
