import RealWorld.Transactional.Program
import RealWorld.Transactional.Interleaving
import RealWorld.Transactional.LastWins
import RealWorld.Relational.Rows
import RealWorld.Relational.Stamped
import RealWorld.Schema.Tables
import RealWorld.Schema.Queries
import RealWorld.Schema.Mutations
import RealWorld.Schema.Statement
import RealWorld.Schema.Effects
import RealWorld.Schema.Sequences
import RealWorld.Schema.Constraints
import RealWorld.Schema.Widths
import RealWorld.Schema.Lookups
import RealWorld.Schema.TagLists
import RealWorld.Schema.TakenNames
import RealWorld.Schema.Raises
import RealWorld.Text.Regex
import RealWorld.Text.Separator
import RealWorld.Text.Runs
import RealWorld.Text.Utf8
import RealWorld.Bytes.Words
import RealWorld.Bytes.Feistel
import RealWorld.Bytes.Sextets
import RealWorld.Bytes.SignExtension
import RealWorld.Common.Errors
import RealWorld.Common.Utils
import RealWorld.Common.AsciiSlugs
import RealWorld.Common.Emails
import RealWorld.Common.Jwt
import RealWorld.Common.Tokens
import RealWorld.Common.Bcrypt
import RealWorld.Common.KeyExpansion
import RealWorld.Common.Blowfish
import RealWorld.Common.BlowfishBlocks
import RealWorld.Common.BcryptSettings
import RealWorld.Common.Checkpw
import RealWorld.Common.SignSafety
import RealWorld.Dto
import RealWorld.Handlers.Base
import RealWorld.Handlers.Outcomes
import RealWorld.Handlers.Articles
import RealWorld.Handlers.ArticleParts
import RealWorld.Handlers.Accounts
import RealWorld.Server
import RealWorld.Handlers.Writes
import RealWorld.Handlers.Rereads
import RealWorld.Handlers.Requests
import RealWorld.Handlers.Singles
import RealWorld.Handlers.Checks
import RealWorld.Handlers.Replies
import RealWorld.Handlers.UserReplies
import RealWorld.Schema.Lists
import RealWorld.Handlers.Lists
import RealWorld.Handlers.Marks
import RealWorld.Handlers.UserData
import RealWorld.Routing
import RealWorld.Runs
import RealWorld.Properties.Views
import RealWorld.Properties.Deletion
import RealWorld.Properties.Ownership
import RealWorld.Properties.Failures
import RealWorld.Properties.Marking
import RealWorld.Properties.Interference
import RealWorld.Properties.History
import RealWorld.Properties.Credentials
import RealWorld.Properties.Gate
import RealWorld.Properties.Slugs
import RealWorld.Properties.Reachability
import RealWorld.Properties.Storable
import RealWorld.Properties.StorableUsers
import RealWorld.Transactional.Acquisition
import RealWorld.Schema.Concurrent
import RealWorld.Schema.Isolation
import RealWorld.Schema.Alone
import RealWorld.Properties.ConcurrentTags
import RealWorld.Schema.Waiting
import RealWorld.Properties.Deadlock
import RealWorld.Relational.Paging
import RealWorld.Properties.Paging
import RealWorld.Transactional.Secrecy
import RealWorld.Schema.Masked
import RealWorld.Handlers.Secrets
import RealWorld.Properties.Secrecy
import RealWorld.Transactional.Rely
import RealWorld.Schema.UserKeys
import RealWorld.Transactional.Locality
import RealWorld.Properties.Identities
import RealWorld.Properties.MissingSlug
import RealWorld.Properties.UserObject
import RealWorld.Properties.Repeated
import RealWorld.Properties.Independence
import RealWorld.Properties.ArticleUpdate
import RealWorld.Properties.SlugConflicts
import RealWorld.Properties.TakenNames
import RealWorld.Properties.ProfileUpdate
import RealWorld.Properties.Tagging
import RealWorld.Properties.Listing
import RealWorld.Properties.Following
import RealWorld.Properties.Comments
import RealWorld.Properties.NewArticles
import RealWorld.Properties.Resubmission
import RealWorld.Properties.MalformedBodies
import RealWorld.Properties.NumericArguments
import RealWorld.Transactional.Serial
import RealWorld.Properties.Serialization
import RealWorld.Relational.Descent
import RealWorld.Properties.Descent
import RealWorld.Handlers.Submissions
import RealWorld.Properties.Provenance
import RealWorld.Properties.PasswordHashes
import RealWorld.Common.Base64
import RealWorld.Common.Picojson
import RealWorld.Common.PicojsonText
import RealWorld.Common.PicojsonGrammar
import RealWorld.Common.JwtCpp
import RealWorld.Common.JwtText
import RealWorld.Properties.TokenFormat
import RealWorld.Properties.Snapshots
import RealWorld.Properties.Times
import RealWorld.Properties.Revisions
