import TokenForge.Base64.Encoding
import TokenForge.Base64.Padded
import TokenForge.Cli.Arguments
import TokenForge.Cli.Fault
import TokenForge.Cli.Help
import TokenForge.Cli.Reader
import TokenForge.Cli.Similarity
import TokenForge.Cli.Switch
import TokenForge.Der.Fault
import TokenForge.Der.Reader
import TokenForge.Der.Tag
import TokenForge.Der.Value
import TokenForge.Disk.File
import TokenForge.Disk.Path
import TokenForge.Disk.Tree
import TokenForge.Environment
import TokenForge.Error
import TokenForge.Hash.Hmac
import TokenForge.Hash.Sha256
import TokenForge.Json.Dump
import TokenForge.Json.Fault
import TokenForge.Json.Numeral
import TokenForge.Json.Reader
import TokenForge.Json.Value
import TokenForge.Json.Writer
import TokenForge.Key.Signing
import TokenForge.Key.Structure
import TokenForge.Log.Event
import TokenForge.Log.Filter
import TokenForge.Log.Logged
import TokenForge.Main
import TokenForge.Number.Binary64
import TokenForge.Number.Bytes
import TokenForge.Number.Shortest
import TokenForge.Number.Text
import TokenForge.P256.Ecdsa
import TokenForge.P256.Field
import TokenForge.P256.Point
import TokenForge.Pattern.Bracket
import TokenForge.Pattern.Escape
import TokenForge.Pattern.Mode
import TokenForge.Pattern.Reader
import TokenForge.Pem.Lenient
import TokenForge.Pem.Strict
import TokenForge.Proofs.Base64.Canonical
import TokenForge.Proofs.Base64.Padded
import TokenForge.Proofs.Base64.Symbols
import TokenForge.Proofs.Base64.Unpadded
import TokenForge.Proofs.Cli.Options
import TokenForge.Proofs.Except
import TokenForge.Proofs.Json.Complete
import TokenForge.Proofs.Json.Grammar
import TokenForge.Proofs.Json.Language
import TokenForge.Proofs.Json.Literal
import TokenForge.Proofs.Json.Machine
import TokenForge.Proofs.Json.Numeral
import TokenForge.Proofs.Json.RoundTrip
import TokenForge.Proofs.Json.Scan
import TokenForge.Proofs.Json.Sound
import TokenForge.Proofs.Key.Dispatch
import TokenForge.Proofs.Pem.Armor
import TokenForge.Proofs.Pem.Framed
import TokenForge.Proofs.Pem.Verbatim
import TokenForge.Proofs.Text.Cut
import TokenForge.Proofs.Text.Infix
import TokenForge.Proofs.Text.Seek
import TokenForge.Proofs.Text.Utf8
import TokenForge.Proofs.Token.Chain
import TokenForge.Proofs.Token.Framing
import TokenForge.Proofs.Token.Order
import TokenForge.Run
import TokenForge.Text.Alphanumeric
import TokenForge.Text.Lines
import TokenForge.Text.Printable
import TokenForge.Text.Quoted
import TokenForge.Text.Record
import TokenForge.Text.Utf8
import TokenForge.Token.Certificate
import TokenForge.Token.Chained
import TokenForge.Token.Payload
import TokenForge.Token.Unencoded
import TokenForge.Proofs.Der.Value
import TokenForge.Proofs.Key.Written
import TokenForge.Proofs.Pem.Lined
import TokenForge.Proofs.Key.Forms
import TokenForge.Proofs.Run.Diagnostics
import TokenForge.Proofs.Run.Outcome
import TokenForge.Proofs.Run.Secret
import TokenForge.Proofs.Run.Wording
import TokenForge.Proofs.Pem.LineEnds
import TokenForge.Proofs.Key.Curve
import TokenForge.Proofs.Number.Bits
import TokenForge.Proofs.Hash.Standard
import TokenForge.Proofs.Hash.Agreement
import TokenForge.Proofs.Token.Keyed
import TokenForge.Proofs.P256.Power
import TokenForge.Proofs.P256.Prime
import TokenForge.Proofs.P256.Group
import TokenForge.Proofs.P256.Weighted
import TokenForge.Proofs.P256.Order
import TokenForge.Proofs.P256.Verified
import TokenForge.Proofs.Token.Verified
import TokenForge.Proofs.Pem.First
import TokenForge.Proofs.Json.Spelling
import TokenForge.Proofs.Json.Delimited
import TokenForge.Proofs.Json.Truncated
import TokenForge.Proofs.Json.Places
import TokenForge.Proofs.Number.Rounding
import TokenForge.Proofs.Json.Keys
import TokenForge.Proofs.Json.Around
import TokenForge.Proofs.Json.Integers
import TokenForge.Proofs.Number.Shortest
import TokenForge.Proofs.Json.Assembled
import TokenForge.Proofs.Json.Reals
import TokenForge.Proofs.Number.Digits
import TokenForge.Proofs.Base64.Blamed
import TokenForge.Proofs.Run.Resolved
import TokenForge.Proofs.Text.Scanned
import TokenForge.Proofs.Json.Lexed
import TokenForge.Proofs.Token.Line
import TokenForge.Proofs.Number.Told
import TokenForge.Proofs.Text.Quoted
import TokenForge.Proofs.Text.Record
import TokenForge.Proofs.Json.Dumped
import TokenForge.Proofs.Token.Dumped
