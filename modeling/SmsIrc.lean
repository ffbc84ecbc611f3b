import SmsIrc.Program
import SmsIrc.Transition
import SmsIrc.Comm
import SmsIrc.SenderRuns
import SmsIrc.LinkVerified
import SmsIrc.LinkLedger
import SmsIrc.LinkGhosts
import SmsIrc.MessageTexts
import SmsIrc.LinkDelivery
import SmsIrc.SeriesArrival
import SmsIrc.LinkVoices
import SmsIrc.LinkRouting
import SmsIrc.LinkAgreement
import SmsIrc.LinkTwice
import SmsIrc.LinkFailures
import SmsIrc.LinkPoison
import SmsIrc.LinkPanics
import SmsIrc.ModemMemory
import SmsIrc.WhatsappOnce
import SmsIrc.WhatsappSeen
import SmsIrc.WhatsappTracker
import SmsIrc.WhatsappDownloads
import SmsIrc.WhatsappSink
import SmsIrc.WhatsappSession
import SmsIrc.WhatsappTurns
import SmsIrc.WhatsappOrder
import SmsIrc.GroupMembers
import SmsIrc.Outbox
import SmsIrc.Registration
import SmsIrc.IrcS2c
import SmsIrc.ControlBot
import SmsIrc.FrontEnds
import SmsIrc.IrcFrames
import SmsIrc.IrcClients
import SmsIrc.RegistrationMessages
import SmsIrc.RegistrationBatches
import SmsIrc.Lowercase
import SmsIrc.AdminWords
import SmsIrc.LinkNicks
import SmsIrc.BotChannels
import SmsIrc.LinkArrivals
import SmsIrc.LinkNames
import SmsIrc.LinkReturns
import SmsIrc.LinkMembership
import SmsIrc.FactoryRuns
import SmsIrc.FactoryKeeping
import SmsIrc.ContactDrops
import SmsIrc.Addresses
import SmsIrc.SafeNames
import SmsIrc.ChunkSizes
import SmsIrc.NickSources
import SmsIrc.NickQueues
import SmsIrc.CtcpActions
import SmsIrc.UidLines
import SmsIrc.AckWarnings
import SmsIrc.AckRuns
import SmsIrc.Handover
import SmsIrc.ClientDeliveries
import SmsIrc.ContactNicks
import SmsIrc.CleanTexts
import SmsIrc.LinkClean
import SmsIrc.CleanRuns
import SmsIrc.NickMigration
import SmsIrc.Formatting
import SmsIrc.NickSearch
import SmsIrc.Autocreation
import SmsIrc.Composition
import SmsIrc.LinkWalk
import SmsIrc.LinkFrame
import SmsIrc.Simulation
import SmsIrc.Main
import SmsIrc.PartFrames
import SmsIrc.MainViews
import SmsIrc.MadeNicks
import SmsIrc.TableHistory
import SmsIrc.LinkSpeech
import SmsIrc.LinkTold
import SmsIrc.SmsAccounts
import SmsIrc.StoredMessages
import SmsIrc.Outgoing
import SmsIrc.LinkSettled
import SmsIrc.Settling
import SmsIrc.Wire
import SmsIrc.ContactFrame
import SmsIrc.FactoryFrame
import SmsIrc.ClientMain
import SmsIrc.ClientViews
import SmsIrc.ContactSessions
import SmsIrc.ClientPresence
