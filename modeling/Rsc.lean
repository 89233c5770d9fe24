import Rsc.Api.Client
import Rsc.Api.Origin
import Rsc.Api.Retry
import Rsc.Api.Ways
import Rsc.App.Cleanup
import Rsc.App.Main
import Rsc.App.Shown
import Rsc.App.Ticks
import Rsc.App.Turns
import Rsc.Auth.Callback
import Rsc.Auth.Client
import Rsc.Auth.Crash
import Rsc.Auth.Expiry
import Rsc.Auth.Listener
import Rsc.Auth.Login
import Rsc.Auth.Manager
import Rsc.Auth.OneRefresh
import Rsc.Auth.Persisted
import Rsc.Auth.Protocol
import Rsc.Auth.Rotation
import Rsc.Auth.SaveFailures
import Rsc.Auth.SaveRaces
import Rsc.Auth.Stages
import Rsc.Auth.StoredSession
import Rsc.Auth.TokenStore
import Rsc.Auth.Tokens
import Rsc.Auth.Ways
import Rsc.Backend.Listing
import Rsc.Backend.Local
import Rsc.EndToEnd.ApiSession
import Rsc.EndToEnd.CallbackRoundTrip
import Rsc.EndToEnd.ExpiryMargin
import Rsc.EndToEnd.LongSession
import Rsc.EndToEnd.MockLogin
import Rsc.EndToEnd.PlayFolder
import Rsc.EndToEnd.Secrets
import Rsc.Library.Atomic
import Rsc.Library.Base64
import Rsc.Library.Channel
import Rsc.Library.Checks
import Rsc.Library.Duration
import Rsc.Library.Fair
import Rsc.Library.FileSystem
import Rsc.Library.FormUrlEncoded
import Rsc.Library.Http
import Rsc.Library.Json
import Rsc.Library.JsonLines
import Rsc.Library.Path
import Rsc.Library.Pool
import Rsc.Library.Prog
import Rsc.Library.Text
import Rsc.Library.UrlParser
import Rsc.Library.UrlReference
import Rsc.Library.Utf8
import Rsc.Mock.Acceptance
import Rsc.Mock.AccessTokens
import Rsc.Mock.Asked
import Rsc.Mock.Authentication
import Rsc.Mock.Authorize
import Rsc.Mock.ClientAuth
import Rsc.Mock.Concurrent
import Rsc.Mock.Config
import Rsc.Mock.Credentials
import Rsc.Mock.Form
import Rsc.Mock.FreshTokens
import Rsc.Mock.History
import Rsc.Mock.Independence
import Rsc.Mock.Invariant
import Rsc.Mock.Lineage
import Rsc.Mock.OwnQuery
import Rsc.Mock.Pkce
import Rsc.Mock.Provenance
import Rsc.Mock.Reachable
import Rsc.Mock.Redirects
import Rsc.Mock.Refusals
import Rsc.Mock.RequestOrder
import Rsc.Mock.Response
import Rsc.Mock.Server
import Rsc.Mock.Store
import Rsc.Mock.Token
import Rsc.Player.Commands
import Rsc.Player.EndOfFile
import Rsc.Player.Mpv
import Rsc.Player.NowPlaying
import Rsc.Player.Pause
import Rsc.Player.Playlist
import Rsc.Player.Previous
import Rsc.Player.Reader
import Rsc.Player.Session
import Rsc.Player.Wire
