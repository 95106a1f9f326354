import CestWriter.Cli.World
import CestWriter.Main
import CestWriter.Proofs.Balance
import CestWriter.Proofs.ClassMembers
import CestWriter.Proofs.CommentLines
import CestWriter.Proofs.Containment
import CestWriter.Proofs.Interpolation
import CestWriter.Proofs.LetterCase
import CestWriter.Proofs.Nesting
import CestWriter.Proofs.Concatenation
import CestWriter.Proofs.WindowLines
import CestWriter.Proofs.InertCommands
import CestWriter.Proofs.LevelProfile
import CestWriter.Proofs.KeyParts
import CestWriter.Proofs.ProjectJson
import CestWriter.Proofs.Cuts
import CestWriter.Proofs.LoopVariables
import CestWriter.Proofs.Braces
import CestWriter.Proofs.BracedEmission
import CestWriter.Proofs.BraceDepth
import CestWriter.Proofs.EmissionShape
import CestWriter.Proofs.EmissionFaults
import CestWriter.Proofs.TextChecks
import CestWriter.Proofs.LiteralReading
import CestWriter.Proofs.EditedContent
import CestWriter.Proofs.WrittenPieces
import CestWriter.Proofs.InterpolatedText
import CestWriter.Proofs.ScriptArguments
import CestWriter.Proofs.NumberLiterals
import CestWriter.Proofs.LocatorForms
import CestWriter.Proofs.RecordedNames
import CestWriter.Proofs.MemberLevel
import CestWriter.Proofs.ArgumentItems
import CestWriter.Proofs.FileTrees
import CestWriter.Proofs.ExportRuns
import CestWriter.Proofs.Doubles
import CestWriter.Proofs.Rounding
import CestWriter.Proofs.Trimming
import CestWriter.Proofs.Numerals
import CestWriter.Proofs.FloorNumbers
import CestWriter.Proofs.YamlLines
import CestWriter.Proofs.YamlMappings
import CestWriter.Proofs.ConfigDocuments
import CestWriter.Proofs.ByteOrder
import CestWriter.Proofs.Registrations
import CestWriter.Proofs.LevelCalls
import CestWriter.Proofs.Assignments
