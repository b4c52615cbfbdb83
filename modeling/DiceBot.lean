import DiceBot.Main
import DiceBot.Proofs.Bot.Isolation
import DiceBot.Proofs.Machine.ComputedBase
import DiceBot.Proofs.Machine.ForcedDice
import DiceBot.Proofs.Machine.StackSafety
import DiceBot.Proofs.Machine.TreeEvaluation
import DiceBot.Proofs.Machine.Stages
import DiceBot.Proofs.Machine.Termination
import DiceBot.Proofs.Code.Capacity
import DiceBot.Proofs.Bot.PrivateConversations
import DiceBot.Proofs.Memory.Bindings
import DiceBot.Proofs.Bot.Cards
import DiceBot.Proofs.Bot.Recording
import DiceBot.Proofs.Command.Rederivation
import DiceBot.Proofs.Command.RoundTrip
import DiceBot.Proofs.Expr.Spans
import DiceBot.Proofs.Command.Recognition
import DiceBot.Proofs.Markup.Rewriting
import DiceBot.Proofs.Command.Normalization
import DiceBot.Proofs.Markup.Locality
import DiceBot.Proofs.Expr.Spelling
import DiceBot.Proofs.Memory.OneMap
import DiceBot.Proofs.Bot.RollReply
import DiceBot.Proofs.Bot.RollReason
import DiceBot.Proofs.Machine.ChainTrace
import DiceBot.Proofs.Machine.Filling
import DiceBot.Proofs.Bot.Removal
import DiceBot.Proofs.Bot.RepeatedRolls
import DiceBot.Proofs.Machine.DetailOrder
import DiceBot.Proofs.Machine.Frames
import DiceBot.Proofs.Expr.FaultOffsets
import DiceBot.Proofs.Code.TemplateLiterals
import DiceBot.Proofs.Machine.ExactArithmetic
import DiceBot.Proofs.Machine.DiceSums
import DiceBot.Proofs.Machine.AssignedNames
import DiceBot.Proofs.Markup.InPlace
import DiceBot.Proofs.Markup.CodeSpelling
import DiceBot.Proofs.Memory.Registrations
import DiceBot.Proofs.Bot.Listing
import DiceBot.Proofs.Bot.Spacing
import DiceBot.Proofs.Bot.OlderRecords
import DiceBot.Proofs.Template.WeightedDraws
import DiceBot.Proofs.Machine.PlainStacks
import DiceBot.Proofs.Command.FirstMarker
import DiceBot.Proofs.Command.ArgumentSplit
