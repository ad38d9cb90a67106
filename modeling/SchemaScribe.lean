import SchemaScribe.About
import SchemaScribe.Main
import SchemaScribe.Endpoint.Desk
import SchemaScribe.Request.Workbench
import SchemaScribe.Proofs.Introspection.Described
import SchemaScribe.Proofs.Introspection.Outline
import SchemaScribe.Proofs.Introspection.References
import SchemaScribe.Proofs.Introspection.Answer
import SchemaScribe.Proofs.Sdl.Description
import SchemaScribe.Proofs.Sdl.Name
import SchemaScribe.Proofs.Sdl.Member
import SchemaScribe.Proofs.Sdl.Declaration
import SchemaScribe.Proofs.Sdl.Injective
import SchemaScribe.Proofs.Sdl.Reading
import SchemaScribe.Proofs.Sdl.Skim
import SchemaScribe.Proofs.Sdl.Roots
import SchemaScribe.Proofs.Introspection.Declarations
import SchemaScribe.Proofs.Introspection.Refusal
import SchemaScribe.Proofs.Endpoint.Verdict
import SchemaScribe.Proofs.Scribe.History
import SchemaScribe.Proofs.Endpoint.Reception
import SchemaScribe.Proofs.Endpoint.Failure
import SchemaScribe.Proofs.Endpoint.Independence
import SchemaScribe.Proofs.CommandLine.Course
import SchemaScribe.Proofs.CommandLine.Delivery
import SchemaScribe.Proofs.CommandLine.Ending
import SchemaScribe.Proofs.Endpoint.Sessions
import SchemaScribe.Proofs.Scribe.Sessions
import SchemaScribe.Proofs.Introspection.Modifiers
import SchemaScribe.Proofs.Introspection.Selection
import SchemaScribe.Proofs.Sdl.BlockLines
import SchemaScribe.Proofs.Sdl.Rereading
import SchemaScribe.Proofs.Sdl.Indentation
import SchemaScribe.Proofs.CommandLine.Spellings
import SchemaScribe.Proofs.Introspection.Reordering
import SchemaScribe.Proofs.Introspection.Essentials
import SchemaScribe.Proofs.Json.Blocked
import SchemaScribe.Proofs.Endpoint.Withheld
import SchemaScribe.Proofs.Json.Strings
import SchemaScribe.Proofs.Json.Readback
import SchemaScribe.Proofs.Endpoint.Bodies
import SchemaScribe.Proofs.Sdl.Unambiguous
import SchemaScribe.Proofs.Sdl.Lexeme
import SchemaScribe.Proofs.Sdl.Deprecation
import SchemaScribe.Proofs.Sdl.Arguments
import SchemaScribe.Proofs.Value.Keys
import SchemaScribe.Proofs.Request.Variables
import SchemaScribe.Proofs.Request.Snapshots
import SchemaScribe.Proofs.Request.Coherence
import SchemaScribe.Proofs.CommandLine.HeaderText
