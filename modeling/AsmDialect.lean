import AsmDialect.Main
import AsmDialect.Profile.Join
import AsmDialect.Session
import AsmDialect.Source.Occurrence
import AsmDialect.Source.Pieces
import AsmDialect.Stream.Delivery
import AsmDialect.Proofs.Profile.Words
import AsmDialect.Proofs.Source.Preparation
import AsmDialect.Proofs.Source.Segments
import AsmDialect.Proofs.Source.Edits
import AsmDialect.Proofs.AnswerLine
import AsmDialect.Proofs.Profile.Gains
import AsmDialect.Proofs.Sessions
import AsmDialect.Proofs.CommandLine.LastValues
import AsmDialect.Proofs.CommandLine.Obstacles
import AsmDialect.Proofs.Settled
import AsmDialect.Proofs.Source.QuotePairs
import AsmDialect.Proofs.Source.Layouts
import AsmDialect.Proofs.CommandLine.Inputs
import AsmDialect.Proofs.Profile.Registers
import AsmDialect.Proofs.Profile.Loads
import AsmDialect.Proofs.Source.NormalForm
import AsmDialect.Proofs.Stream.Blocks
import AsmDialect.Proofs.Stream.Scripts
import AsmDialect.Proofs.Source.Seams
import AsmDialect.Proofs.Source.Stages
import AsmDialect.Proofs.CommandLine.Guards
import AsmDialect.Proofs.Profile.Descriptions
import AsmDialect.Proofs.Profile.Names
import AsmDialect.Proofs.Verbosity
import AsmDialect.Proofs.CommandLine.Rewordings
