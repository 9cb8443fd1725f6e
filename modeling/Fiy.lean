import Fiy.ByteStrings
import Fiy.DecimalTexts
import Fiy.KeyedTables
import Fiy.GuardedRuns
import Fiy.CheckedLoops
import Fiy.TextViews
import Fiy.SortedLists
import Fiy.SharedLocks
import Fiy.PendingWork
import Fiy.RowTables
import Fiy.PathWalks
import Fiy.FileTrees
import Fiy.HttpMessages
import Fiy.WebText
import Fiy.UriComponents
import Fiy.CookieHeaders
import Fiy.QueryStrings
import Fiy.RoutePatterns
import Fiy.Templates
import Fiy.UrlForms
import Fiy.HostEnvironment
import Fiy.PeerLinks
import Fiy.PeerRegistry
import Fiy.RegistryRuns
import Fiy.PeerHandshake
import Fiy.HandshakeAgreement
import Fiy.LocalAccounts
import Fiy.ModAccess
import Fiy.Sessions
import Fiy.LocalAuthentication
import Fiy.ModConnectors
import Fiy.PeerRequests
import Fiy.RequestRouting
import Fiy.ConnectionRuns
import Fiy.EscapedExceptions
import Fiy.PeerExchange
import Fiy.OutgoingIdentity
import Fiy.SessionTokens
import Fiy.AccountDeletion
import Fiy.ModPaths
import Fiy.ModLibrary
import Fiy.CivilCalendar
import Fiy.ContactCards
import Fiy.CardTexts
import Fiy.CardRoundTrip
import Fiy.CardFolding
import Fiy.ContactsStore
import Fiy.ContactsMod
import Fiy.ContactsInvariant
import Fiy.ContactsPrivacy
import Fiy.ContactsAnswers
import Fiy.CdnServer
import Fiy.CdnCapabilities
import Fiy.GitRepos
import Fiy.GitPages
import Fiy.GitSearch
import Fiy.GitRouter
import Fiy.GitAnswers
import Fiy.GitConfinement
import Fiy.GitPrivacy
import Fiy.MacBorders
import Fiy.PasswordResults
import Fiy.UserStrings
import Fiy.HeaderBlocks
import Fiy.ResponseBlocks
import Fiy.NetIdentity
import Fiy.RequestFreshness
import Fiy.TokenStubs
import Fiy.StaticFiles
import Fiy.LinklessSites
import Fiy.RepoCache
import Fiy.GitAccess
import Fiy.StructuredNames
import Fiy.ContactsById
import Fiy.RemotePictures
import Fiy.RejectedSaves
import Fiy.SavedIds
import Fiy.SearchVisibility
import Fiy.StatementScripts
import Fiy.ContactWrites
import Fiy.AccountStatements
import Fiy.RepoAddresses
import Fiy.CanonicalAddresses
import Fiy.PageRoutes
import Fiy.SqlTexts
import Fiy.SqlQueries
import Fiy.SearchStatements
import Fiy.SearchColumns
import Fiy.SearchConditions
import Fiy.SearchRows
import Fiy.SearchTexts
import Fiy.SearchPages
import Fiy.LikesPages
import Fiy.RepoCreation
import Fiy.CreatedPlaces
import Fiy.RepoDtos
import Fiy.Histories
import Fiy.LastCommits
import Fiy.RhexCodec
import Fiy.HostPorts
import Fiy.CgiOutputs
import Fiy.NotedUsers
import Fiy.StaticAnswers
import Fiy.ListingLinks
import Fiy.MailBoxes
import Fiy.ModLoading
import Fiy.CommandLines
import Fiy.AssetPurges
import Fiy.EscapeTables
import Fiy.EscapedTexts
import Fiy.AssetFiles
import Fiy.CallRuns
import Fiy.LruCaches
import Fiy.InPlaceTemplates
import Fiy.MaximalRuns
import Fiy.WorkerPools
import Fiy.ChildPipes
import Fiy.MailFederation
import Fiy.ModFiles
import Fiy.Base64Texts
import Fiy.ContentLines
import Fiy.EncodedTexts
import Fiy.FrontendCards
import Fiy.FrontendSaves
import Fiy.FrontendLists
import Fiy.FrontendImports
import Fiy.CardOwnership
import Fiy.BrowserSessions
import Fiy.ServedConnections
