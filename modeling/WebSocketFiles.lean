import WebSocketFiles.Codec.FrameEncoder
import WebSocketFiles.Codec.Repacking
import WebSocketFiles.Codec.Cursor
import WebSocketFiles.Digest.Base64
import WebSocketFiles.Digest.HashObject
import WebSocketFiles.Stream.Messages
import WebSocketFiles.Handshake.Gate
import WebSocketFiles.Handshake.Rejection
import WebSocketFiles.Handshake.Growth
import WebSocketFiles.Handshake.Arrival
import WebSocketFiles.Handshake.Decision
import WebSocketFiles.Handshake.Fields
import WebSocketFiles.Handshake.Variants
import WebSocketFiles.Handshake.Answer
import WebSocketFiles.Receive.Memory
import WebSocketFiles.Receive.Conservation
import WebSocketFiles.Receive.Callbacks
import WebSocketFiles.Server.Ordering
import WebSocketFiles.Server.Isolation
import WebSocketFiles.Server.PeerRead
import WebSocketFiles.Server.Sessions
import WebSocketFiles.Server.Draining
import WebSocketFiles.Server.Retained
