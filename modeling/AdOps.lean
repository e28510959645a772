import AdOps.Main
import AdOps.Proofs.Argument.Views
import AdOps.Proofs.Bot.Bare
import AdOps.Proofs.Bot.Blank
import AdOps.Proofs.Bot.Chunking
import AdOps.Proofs.Bot.Dated
import AdOps.Proofs.Bot.Fields
import AdOps.Proofs.Bot.History
import AdOps.Proofs.Bot.Kills
import AdOps.Proofs.Bot.Named
import AdOps.Proofs.Bot.Omitted
import AdOps.Proofs.Bot.Remembered
import AdOps.Proofs.Bot.Shaping
import AdOps.Proofs.Bot.Synonyms
import AdOps.Proofs.Bot.TypedAll
import AdOps.Proofs.Bot.Untracked
import AdOps.Proofs.Bot.Windows
import AdOps.Proofs.Cli.Spelling
import AdOps.Proofs.CommandLine.BehindHead
import AdOps.Proofs.CommandLine.Interleaving
import AdOps.Proofs.CommandLine.Numbers
import AdOps.Proofs.CommandLine.Placement
import AdOps.Proofs.CommandLine.Policies
import AdOps.Proofs.CommandLine.WordRoles
import AdOps.Proofs.Flag.Resume
import AdOps.Proofs.Handler.Killing
import AdOps.Proofs.Handler.OneCampaign
import AdOps.Proofs.Handler.OwnWidgets
import AdOps.Proofs.Handler.Ranking
import AdOps.Proofs.Handler.Strictness
import AdOps.Proofs.Interval.DayCounts
import AdOps.Proofs.Message.Cutting
import AdOps.Proofs.Message.Decoding
import AdOps.Proofs.Reconcile.Integers
import AdOps.Proofs.Reconcile.Merge
import AdOps.Proofs.Reconcile.Order
import AdOps.Proofs.Record.Projection
import AdOps.Proofs.Record.Spend
import AdOps.Proofs.Service.Session
