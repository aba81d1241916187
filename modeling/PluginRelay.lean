import PluginRelay.Command.Arguments
import PluginRelay.Json.Printer
import PluginRelay.Json.Reader
import PluginRelay.Payload.Catalog
import PluginRelay.Payload.Json
import PluginRelay.Router.Serve
import PluginRelay.Plugin.Basic
import PluginRelay.Script.Access
import PluginRelay.Script.Arithmetic
import PluginRelay.Script.Builtin.Array
import PluginRelay.Script.Builtin.Error
import PluginRelay.Script.Builtin.Function
import PluginRelay.Script.Builtin.Global
import PluginRelay.Script.Builtin.Number
import PluginRelay.Script.Builtin.Sort
import PluginRelay.Script.Builtin.String
import PluginRelay.Script.Regexp.Match
import PluginRelay.Script.Builtin
import PluginRelay.Script.Builtin.Internal
import PluginRelay.Script.Level
import PluginRelay.Script.Realm
import PluginRelay.Command.Run
import PluginRelay.Embedding.Catalog
import PluginRelay.Main
import PluginRelay.Proofs.Exchange
import PluginRelay.Proofs.Normalisation
import PluginRelay.Proofs.Serving
import PluginRelay.Proofs.Invocation
import PluginRelay.Proofs.UntaggedValues
import PluginRelay.Proofs.MessageGrammar
import PluginRelay.Proofs.PayloadDelivery
import PluginRelay.Proofs.MessagePrefixes
import PluginRelay.Proofs.LogCapture
import PluginRelay.Proofs.FuelLimits
import PluginRelay.Proofs.HandlerLookup
import PluginRelay.Proofs.RegularExits
import PluginRelay.Proofs.RoutingHistory
import PluginRelay.Proofs.ReferenceBalance
import PluginRelay.Proofs.Rethrowing
import PluginRelay.Proofs.JsonForms
import PluginRelay.Proofs.JsonNormalForm
import PluginRelay.Message.Building
import PluginRelay.Proofs.SingleFloat
import PluginRelay.Proofs.TypedDelivery
import PluginRelay.Proofs.BuilderHistory
import PluginRelay.Proofs.CommandOutcomes
import PluginRelay.Proofs.SpentBuilders
import PluginRelay.Proofs.DefinedMembers
import PluginRelay.Proofs.ListedMembers
import PluginRelay.Proofs.ExactNumbers
import PluginRelay.Proofs.PassedTexts
import PluginRelay.Proofs.InvocationLines
import PluginRelay.Proofs.AppendedElements
import PluginRelay.Proofs.CutMessages
import PluginRelay.Proofs.PrintedLines
import PluginRelay.Proofs.VerbosityFlags
