import ContractExpr.CommandLine
import ContractExpr.Main
import ContractExpr.Proofs.Grammar.Relabel
import ContractExpr.Proofs.Parser.Completeness
import ContractExpr.Proofs.Parser.Soundness
import ContractExpr.Roundtrip.Broken
import ContractExpr.Sampling.Survey
import ContractExpr.Proofs.Token.Digits
import ContractExpr.Proofs.Token.Kinds
import ContractExpr.Proofs.Token.Spelling
import ContractExpr.Proofs.Text.Quoted
import ContractExpr.Proofs.Token.Literals
import ContractExpr.Proofs.Expr.Induction
import ContractExpr.Proofs.Expr.Names
import ContractExpr.Proofs.Expr.Written
import ContractExpr.Proofs.Token.Pieces
import ContractExpr.Proofs.Expr.Rendering
import ContractExpr.Proofs.Expr.Spelling
import ContractExpr.Proofs.Grammar.Levels
import ContractExpr.Proofs.Grammar.Colons
import ContractExpr.Proofs.Parser.Exactness
import ContractExpr.Proofs.Parser.NestingLimit
import ContractExpr.Proofs.Roundtrip.Rendering
import ContractExpr.Proofs.Roundtrip.Canonical
import ContractExpr.Proofs.Roundtrip.Domain
import ContractExpr.Proofs.Roundtrip.Accepted
import ContractExpr.Proofs.Roundtrip.Runner
import ContractExpr.Proofs.Roundtrip.Parentheses
import ContractExpr.Parser.Descent
import ContractExpr.Proofs.Session.Calls
import ContractExpr.Proofs.Parser.Blame
import ContractExpr.Proofs.Parser.Spacing
import ContractExpr.Proofs.Roundtrip.Deepening
import ContractExpr.Proofs.Token.Tiling
import ContractExpr.Proofs.Expr.Replacement
import ContractExpr.Proofs.Session.Numbering
import ContractExpr.Proofs.Parser.Grafting
import ContractExpr.Proofs.Roundtrip.Detection
import ContractExpr.Proofs.Parser.Places
import ContractExpr.Proofs.Parser.OwnText
import ContractExpr.Proofs.CommandLine.Formatting
import ContractExpr.Proofs.Number.Canonical
import ContractExpr.Proofs.Token.Alone
import ContractExpr.Proofs.Token.LiteralGrammar
import ContractExpr.Proofs.Session.Recursion
import ContractExpr.Proofs.Session.Precedence
import ContractExpr.Proofs.Span.Merging
import ContractExpr.Proofs.Parser.UsableNames
import ContractExpr.Proofs.Session.NumberLiterals
