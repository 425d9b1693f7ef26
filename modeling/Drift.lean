import Drift.App.Proof.Deliveries
import Drift.App.Proof.Desk
import Drift.App.Proof.Frames
import Drift.App.Proof.Pump
import Drift.App.Proof.Recording
import Drift.App.Proof.Sessions
import Drift.App.Proof.Triggers
import Drift.App.Proof.Views
import Drift.App.Proof.Windows
import Drift.Channel.Proof.Chunk
import Drift.Channel.Proof.Tunnels
import Drift.Clipboard.Proof.Newest
import Drift.Clipboard.Proof.Served
import Drift.Clipboard.Proof.Text
import Drift.Clipboard.Proof.Timeout
import Drift.Codec.Proof.Calls
import Drift.Codec.Proof.Retention
import Drift.Codec.Proof.Rlgr
import Drift.Core.Proof.Attempts
import Drift.Egfx.Proof.Flow
import Drift.Egfx.Proof.Session
import Drift.Gfx.Proof.AckPolicy
import Drift.Gfx.Proof.Drawn
import Drift.Input.Proof.Buttons
import Drift.Input.Proof.Menu
import Drift.Input.Proof.Scroll
import Drift.Pointer.Proof.Fragments
import Drift.Profiles.Proof.Pins
import Drift.Rdp.Layout
import Drift.Rdp.Proof.Budget
import Drift.Rdp.Proof.Commands
import Drift.Rdp.Proof.Copies
import Drift.Rdp.Proof.Ending
import Drift.Rdp.Proof.FastPathPdu
import Drift.Rdp.Proof.GfxAck
import Drift.Rdp.Proof.Greeter
import Drift.Rdp.Proof.Resize
import Drift.Rdp.Proof.Trust
import Drift.Rdp.Proof.Visibility
import Drift.Rdp.Redirect
import Drift.Render.Layout
import Drift.Render.Proof.Screen
import Drift.Render.Proof.Thread
import Drift.Video.Proof.AnnexB
import Drift.Video.Proof.Decoder
import Drift.Video.Proof.Metablock
import Drift.Video.Proof.Sps
import Drift.Zgfx.Proof.Limits
import Drift.Zgfx.Proof.MatchTable
