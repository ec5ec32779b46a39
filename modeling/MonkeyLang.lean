import MonkeyLang.Main
import MonkeyLang.Proofs.Diagnostic.Placement
import MonkeyLang.Proofs.Grammar.Acceptance
import MonkeyLang.Proofs.Grammar.NextLine
import MonkeyLang.Proofs.Lexing.Layout
import MonkeyLang.Proofs.Nesting.Cost
import MonkeyLang.Proofs.Nesting.Counter
import MonkeyLang.Proofs.Nesting.Height
import MonkeyLang.Proofs.Nesting.Limit
import MonkeyLang.Proofs.Position.LineColumn
import MonkeyLang.Proofs.ReadLoop.Failure
import MonkeyLang.Proofs.Reading.Remainder
import MonkeyLang.Proofs.Recovery.NextStatement
import MonkeyLang.Proofs.Recovery.Progress
import MonkeyLang.Proofs.Recovery.Provenance
import MonkeyLang.Proofs.Recovery.Region
import MonkeyLang.Proofs.Recovery.Semicolon
import MonkeyLang.Proofs.RoundTrip.Integer
import MonkeyLang.Proofs.RoundTrip.Program
import MonkeyLang.Proofs.RoundTrip.Reparse
import MonkeyLang.Proofs.Window.Agreement
import MonkeyLang.Token.Lexer
