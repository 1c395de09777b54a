import SqlxMonetdb.LabelledRuns
import SqlxMonetdb.ListSplitting
import SqlxMonetdb.TextPrimitives
import SqlxMonetdb.DriverError
import SqlxMonetdb.Framing
import SqlxMonetdb.FramingBlocks
import SqlxMonetdb.MessageStream
import SqlxMonetdb.Response
import SqlxMonetdb.ResponseRendering
import SqlxMonetdb.ResponseLines
import SqlxMonetdb.Row
import SqlxMonetdb.Arguments
import SqlxMonetdb.Scanning
import SqlxMonetdb.StringLiteral
import SqlxMonetdb.SqlTokens
import SqlxMonetdb.Substitution
import SqlxMonetdb.Connection
import SqlxMonetdb.ReplySections
import SqlxMonetdb.Session
import SqlxMonetdb.Cancellation
import SqlxMonetdb.FramingPrefixes
import SqlxMonetdb.ResponseErrors
import SqlxMonetdb.ServerEscapes
import SqlxMonetdb.HeaderNames
import SqlxMonetdb.TableLines
import SqlxMonetdb.Handshake
import SqlxMonetdb.EventPrograms
import SqlxMonetdb.PerformHandshake
import SqlxMonetdb.HandshakeOrder
import SqlxMonetdb.Conversations
import SqlxMonetdb.HandshakeOutcomes
import SqlxMonetdb.ConnectOptions
import SqlxMonetdb.LoginLine
import SqlxMonetdb.CanonicalBlocks
import SqlxMonetdb.QuoteDoubling
import SqlxMonetdb.ChallengeLines
import SqlxMonetdb.ConnectionUrls
import SqlxMonetdb.DroppedQueries
import SqlxMonetdb.Handovers
import SqlxMonetdb.Arrivals
import SqlxMonetdb.Executor
import SqlxMonetdb.Transcripts
import SqlxMonetdb.JoinedReplies
import SqlxMonetdb.Values
import SqlxMonetdb.SelectedValues
import SqlxMonetdb.EchoedValues
import SqlxMonetdb.PairedHandshakes
import SqlxMonetdb.ResultSizes
import SqlxMonetdb.LoginVerification
import SqlxMonetdb.ServedQueries
