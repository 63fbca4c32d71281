import RobocupDrone.Library.Numerals
import RobocupDrone.Library.Machine
import RobocupDrone.Library.Vec3
import RobocupDrone.Controller.State
import RobocupDrone.Controller.Callbacks
import RobocupDrone.Controller.Moves
import RobocupDrone.Controller.Invariants
import RobocupDrone.Controller.Route
import RobocupDrone.Controller.Landing
import RobocupDrone.Planner.Waypoint
import RobocupDrone.Planner.ReplanFsm
import RobocupDrone.Planner.EmergencyStop
import RobocupDrone.Planner.UniformBspline
import RobocupDrone.Planner.TrajServer
import RobocupDrone.Planner.YawControl
import RobocupDrone.Library.Codec
import RobocupDrone.Bridge.Messages
import RobocupDrone.Library.Attempt
import RobocupDrone.Library.Arc
import RobocupDrone.Servo.Server
import RobocupDrone.Servo.Pulses
import RobocupDrone.Controller.Payload
import RobocupDrone.Controller.SetPoint
import RobocupDrone.Controller.Missions
import RobocupDrone.Controller.Dwell
import RobocupDrone.Bridge.RoundTrip
import RobocupDrone.Bridge.Counts
import RobocupDrone.Bridge.UdpReceiver
import RobocupDrone.Bridge.TcpServer
import RobocupDrone.Mapping.RayCaster
import RobocupDrone.Mapping.GridMap
import RobocupDrone.Mapping.RayReach
import RobocupDrone.Mapping.ExtremeRays
import RobocupDrone.Mapping.FrameRays
import RobocupDrone.Mapping.DepthFrames
import RobocupDrone.Planner.SwarmTrajs
import RobocupDrone.Planner.SwarmStep
import RobocupDrone.Planner.SwarmBroadcast
import RobocupDrone.Planner.SwarmEntries
import RobocupDrone.Planner.SwarmSafety
import RobocupDrone.Planner.SwarmChain
import RobocupDrone.Library.Voxels
import RobocupDrone.Library.Buffer
import RobocupDrone.Mapping.Inflation
import RobocupDrone.Mapping.VoxelAccess
import RobocupDrone.Mapping.CloudUpdate
import RobocupDrone.Library.Counter
import RobocupDrone.Mapping.FrameLog
import RobocupDrone.Mapping.VoteCounts
import RobocupDrone.Mapping.FrameStamps
import RobocupDrone.Bridge.Senders
import RobocupDrone.Library.DeBoor
import RobocupDrone.Planner.SplineCommands
import RobocupDrone.Planner.Feasibility
import RobocupDrone.Planner.SplineFit
import RobocupDrone.Library.Loop
import RobocupDrone.Optimizer.ReboundLoop
import RobocupDrone.Optimizer.CostTerms
import RobocupDrone.Optimizer.SwarmClearance
import RobocupDrone.Library.Gradient
import RobocupDrone.Optimizer.Gradients
import RobocupDrone.Optimizer.CombinedCost
import RobocupDrone.Optimizer.ExactGradients
import RobocupDrone.Optimizer.CollisionSegments
import RobocupDrone.Optimizer.PlaneScan
import RobocupDrone.Planner.SplineSpeed
import RobocupDrone.Optimizer.CollisionSampling
import RobocupDrone.Planner.PolynomialTraj
import RobocupDrone.Planner.MinSnap
import RobocupDrone.Library.Quintic
import RobocupDrone.Planner.MinSnapJoins
import RobocupDrone.Planner.MinSnapWayPoints
import RobocupDrone.Planner.StretchRatio
import RobocupDrone.Planner.Retiming
import RobocupDrone.Library.Ticks
import RobocupDrone.Planner.Refinement
import RobocupDrone.Planner.OneSegment
import RobocupDrone.Library.Legs
import RobocupDrone.Planner.GlobalWaypoints
import RobocupDrone.Planner.GlobalTraj
import RobocupDrone.Planner.LocalTarget
import RobocupDrone.Planner.ReboundReplan
import RobocupDrone.Planner.PreviousPath
import RobocupDrone.Planner.Resampling
import RobocupDrone.Planner.MinSnapOptimal
import RobocupDrone.Planner.ShrinkingSteps
import RobocupDrone.Planner.PolynomialInit
import RobocupDrone.Library.KeyedHeap
import RobocupDrone.Library.Potential
import RobocupDrone.Library.Diagonal
import RobocupDrone.PathSearching.GridIndex
import RobocupDrone.PathSearching.EndPoints
import RobocupDrone.PathSearching.DynAStar
import RobocupDrone.PathSearching.SearchInvariant
import RobocupDrone.PathSearching.FoundPaths
import RobocupDrone.PathSearching.Completeness
import RobocupDrone.PathSearching.PoppedNodes
import RobocupDrone.PathSearching.Heuristic
import RobocupDrone.Mapping.RayCells
import RobocupDrone.Mapping.UnknownVoxels
import RobocupDrone.Mapping.DepthImage
import RobocupDrone.Mapping.ProjectedPoints
import RobocupDrone.Library.SortedMap
import RobocupDrone.Library.Greedy
import RobocupDrone.YoloServer.Nms
import RobocupDrone.YoloServer.ProcessOnce
import RobocupDrone.YoloServer.Resize
import RobocupDrone.YoloServer.ResizedPixels
import RobocupDrone.DroneDetect.CountPixel
import RobocupDrone.DroneDetect.SpiralSearch
import RobocupDrone.Library.QuasiNewton
import RobocupDrone.Optimizer.Lbfgs
import RobocupDrone.Optimizer.LineSearch
import RobocupDrone.Optimizer.LbfgsMemory
import RobocupDrone.Optimizer.LbfgsRuns
import RobocupDrone.Optimizer.SegmentBounds
import RobocupDrone.Optimizer.InitScan
import RobocupDrone.Optimizer.InitControlPoints
import RobocupDrone.Optimizer.SegmentCoverage
import RobocupDrone.Optimizer.ReboundOptimize
import RobocupDrone.Optimizer.ReboundSuccess
import RobocupDrone.Optimizer.RefineOptimize
import RobocupDrone.Optimizer.BoundsRuns
import RobocupDrone.Library.Odometer
import RobocupDrone.Optimizer.DistinctiveTrajs
import RobocupDrone.Optimizer.TrajVariants
import RobocupDrone.Planner.TrajSelection
import RobocupDrone.Odometry.IkdTree
import RobocupDrone.Odometry.VisiblePoints
import RobocupDrone.Odometry.TreeSearch
import RobocupDrone.Odometry.TreeChanges
import RobocupDrone.Odometry.Downsampling
import RobocupDrone.Odometry.MapRuns
import RobocupDrone.Odometry.LocalMap
import RobocupDrone.Odometry.SyncPackages
