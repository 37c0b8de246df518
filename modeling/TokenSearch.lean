import TokenSearch.Logging.Format
import TokenSearch.Main
import TokenSearch.Proofs.Lexer.Tiling
import TokenSearch.Proofs.Service.Rebuild
import TokenSearch.Session.Files
import TokenSearch.Session.Observe
import TokenSearch.Text.Real
import TokenSearch.Proofs.Lexer.Delimit
import TokenSearch.Proofs.Lexer.Separator
import TokenSearch.Proofs.Lexer.Respacing
import TokenSearch.Proofs.Artifact.Salvage
import TokenSearch.Proofs.Artifact.Replace
import TokenSearch.Proofs.Service.Recovery
import TokenSearch.Proofs.Discovery
import TokenSearch.Proofs.Discovery.Qualify
import TokenSearch.Proofs.Service.View
import TokenSearch.Proofs.Index.Consistent
import TokenSearch.Proofs.Index.Decided
import TokenSearch.Proofs.Service.Audit
import TokenSearch.Proofs.Index.Settled
import TokenSearch.Proofs.Service.AllClear
import TokenSearch.Proofs.Lexer.Joined
import TokenSearch.Proofs.Search.Fragment
import TokenSearch.Proofs.Index.Canonical
import TokenSearch.Proofs.Artifact.Atomic
import TokenSearch.Proofs.Lexer.Munch
import TokenSearch.Proofs.Service.Census
import TokenSearch.Proofs.Service.Concurrent
import TokenSearch.Proofs.Service.Search
import TokenSearch.Proofs.Lexer.Failure
import TokenSearch.Proofs.Lexer.Directive
import TokenSearch.Proofs.Lexer.Continuation
import TokenSearch.Proofs.Lexer.Span
import TokenSearch.Proofs.Search.Lines
import TokenSearch.Proofs.Search.Display
import TokenSearch.Proofs.Artifact.Tally
import TokenSearch.Proofs.Search.Limit
import TokenSearch.Proofs.Service.Limit
import TokenSearch.Proofs.Artifact.ByteOrder
import TokenSearch.Proofs.Index.Naming
import TokenSearch.Proofs.Logging.Extras
