import ModuleLink.ConnectionThreads
import ModuleLink.Main
import ModuleLink.Polling
import ModuleLink.ReferenceQueries
import ModuleLink.ReplyWaiters
import ModuleLink.SenderThreads
import ModuleLink.TimedWaiters
import ModuleLink.Proofs.EnvelopeReception
import ModuleLink.Proofs.ReplySearch
import ModuleLink.Proofs.WaitOutcomes
import ModuleLink.Proofs.RouterEvents
import ModuleLink.Proofs.RouterMail
import ModuleLink.Proofs.ReplyMatching
import ModuleLink.Proofs.StreamPosition
import ModuleLink.Proofs.MissedReplies
import ModuleLink.Proofs.SendSteps
import ModuleLink.Proofs.ContextOperations
import ModuleLink.Proofs.SwallowedMessages
import ModuleLink.Proofs.ClassifierFields
import ModuleLink.Proofs.ExactReception
import ModuleLink.Proofs.EnvelopeRoundTrip
import ModuleLink.Proofs.DirectDelivery
import ModuleLink.Proofs.OvertakenSenders
import ModuleLink.Proofs.HandleGenerations
import ModuleLink.Proofs.RequestLines
import ModuleLink.Proofs.TrackedConnections
import ModuleLink.Proofs.ChannelEnds
import ModuleLink.Proofs.QueryReplies
import ModuleLink.Proofs.Dialogues
import ModuleLink.Proofs.QueryDialogues
import ModuleLink.Proofs.ForeignLayouts
import ModuleLink.Proofs.EnvelopeCustody
import ModuleLink.Proofs.InboundOrder
import ModuleLink.Proofs.ReferenceChanges
import ModuleLink.Proofs.ResponseSteps
import ModuleLink.Proofs.ReferenceLifecycle
import ModuleLink.Proofs.DecodedSegments
import ModuleLink.Proofs.WellFormedEnvelopes
import ModuleLink.Proofs.BufferedRequests
import ModuleLink.Proofs.WireOrder
import ModuleLink.Proofs.PartialReads
import ModuleLink.Proofs.PartialWrites
import ModuleLink.Proofs.ReplyBuffers
import ModuleLink.Proofs.FailedSends
import ModuleLink.Proofs.OfferedBuffers
import ModuleLink.Proofs.ReplacedClasses
import ModuleLink.Proofs.ReplyDeadlines
import ModuleLink.Proofs.ResponseLabels
import ModuleLink.Proofs.SlotAccounts
import ModuleLink.Proofs.ExactCodecs
import ModuleLink.Proofs.RequestedPaths
import ModuleLink.Proofs.InvalidatedConnections
import ModuleLink.Proofs.RouterAnswers
import ModuleLink.Proofs.KeptTimes
import ModuleLink.Proofs.TargetTexts
import ModuleLink.Proofs.ClientRequests
import ModuleLink.Proofs.PrintedEnvelopes
import ModuleLink.Proofs.ClassifierWords
